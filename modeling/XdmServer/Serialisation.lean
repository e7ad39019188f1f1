import XdmServer.Accounts
import XdmServer.Turns

/-! # Serialisability of shared access

    `log` is one order of all transactions and all changes at the front panel.
    `serialised` says that what each client is sent is what executing this order on the
    meter, one event after the other, answers to that client's own queries, and that
    each of its lines is executed once and in its place, in every run in which the
    answers to the clients' queries are ASCII.

    What a task knows of itself is its own share of the order; the invariant is that
    this is what the order has, and that only the holder of the lock touches the
    transport. -/

namespace Serialisation

open PyText Coroutine Commands Device Interleaving Scpi Sessions Clients Accounts

variable {M ι : Type}

variable [DecidableEq ι] (exec : M → Str → Option Str × M) (timeout : Rat)

/-- What `t` has of the order. -/
def share (m : M) (s : Shop M ι) (t : ι) : Share := ⟨s.read t, s.sent t, turns exec t m s.log⟩

/-- The order accounts for the meter and for every client. -/
structure Serialised (m : M) (c : Config Wire Exc Unit ι (Shop M ι)) : Prop where
  meter : replay exec m c.shared.log = c.shared.meter
  accounted : ∀ t lines, c.shared.serving t = some (.client lines) →
    Accounted lines (share exec m c.shared t)
  complete : ∀ t lines r, c.shared.serving t = some (.client lines) →
    (c.point t).outcome = some r → r = .ok () ∧ Complete lines (share exec m c.shared t)

/-- The lines of a client. -/
def linesOf : Option Entry → Option (List ClientLine)
  | some (.client lines) => some lines
  | _ => none

theorem client_of_linesOf {e : Option Entry} {lines : List ClientLine}
    (h : linesOf e = some lines) : e = some (.client lines) := by
  match e, h with
  | some (.client _), rfl => rfl

/-- `P` holds of the transaction under way. -/
def UnderWay (P : ι → Flight → Prop) : Slot ι → Prop
  | .busy t f => P t f
  | _ => True

/-- What the meter answers to a client's own query is ASCII. -/
def AsciiAnswers (s : Shop M ι) (a : Action (clients exec timeout : System _ _ _ ι _))
    (_ : Shop M ι) : Prop :=
  match a with
  | .env (.act .completes) => UnderWay (fun t f =>
      (linesOf (s.serving t)).isSome = true → f.greeting = false → f.expects = true →
        ∀ reply ∈ (exec s.meter f.command).1, isAscii reply = true) s.slot
  | _ => True

/-! ## The invariant -/

/-- How a task ends: a client at the end of its stream, with every line accounted for. -/
def Ends (r : Except Exc Unit) (g : Own) : Prop :=
  ∀ ls, g.lines = some ls → r = .ok () ∧ Complete ls g.share

/-- What a task knows, whether an operation of its own is under way or not. -/
def own : Phase accounts → Own
  | .ready g => g
  | .waiting h => h.1

/-- The transaction of `t` that is under way. -/
def flightOf (s : Shop M ι) (t : ι) : Option Flight :=
  match s.slot with
  | .busy u f => if u = t then some f else none
  | _ => none

theorem flightOf_free {s : Shop M ι} {t : ι} (h : s.slot = .free) :
    flightOf s t = none := by
  unfold flightOf
  rw [h]

theorem flightOf_self {s : Shop M ι} {t : ι} {f : Flight} (h : s.slot = .busy t f) :
    flightOf s t = some f := by
  unfold flightOf
  rw [h]
  exact if_pos rfl

theorem flightOf_other {s : Shop M ι} {t u : ι} {f : Flight} (h : s.slot = .busy t f)
    (hu : u ≠ t) : flightOf s u = none := by
  unfold flightOf
  rw [h]
  exact if_neg (Ne.symm hu)

/-- What a task knows is so. -/
structure Matches (s : Shop M ι) (t : ι) (g : Own) : Prop where
  idle : g.stand = .idle ↔ s.serving t = none
  holding : g.stand = .holding ↔ s.holder = some t
  lines : g.lines = linesOf (s.serving t)
  read : g.share.read = s.read t
  sent : g.share.sent = s.sent t
  fair : Fair g.lines g.share
  blank : g.stand = .idle → g.share = ⟨0, [], []⟩
  fresh : g.fresh = true → g.stand = .holding

omit [DecidableEq ι] in
theorem Matches.frame {s s' : Shop M ι} {t : ι} {g : Own} (h : Matches s t g)
    (hserving : s'.serving t = s.serving t) (hholder : s'.holder = some t ↔ s.holder = some t)
    (hread : s'.read t = s.read t) (hsent : s'.sent t = s.sent t) : Matches s' t g where
  idle := hserving ▸ h.idle
  holding := h.holding.trans hholder.symm
  lines := hserving ▸ h.lines
  read := h.read.trans hread.symm
  sent := h.sent.trans hsent.symm
  fair := h.fair
  blank := h.blank
  fresh := h.fresh

variable (m : M)

/-- A transaction under way is what its task waits for, under the lock.  Once it has acted,
    the order has one turn more than the task knows of. -/
structure Flying (s : Shop M ι) (t : ι) (f : Flight) (φ : Phase accounts) : Prop where
  waits : ∃ limit, φ = .waiting (own φ, .inl (.transact f.command f.expects limit))
  stand : (own φ).stand = .holding
  greeting : f.greeting = (own φ).fresh
  unacted : f.result = none → turns exec t m s.log = (own φ).share.turns
  acted : ∀ r, f.result = some r → ∃ turn,
    Told (own φ) f.command f.expects (r.mapError .transportError) turn ∧
      turns exec t m s.log = (own φ).share.turns ++ [turn]

/-- Otherwise the order has the turns that the task knows of, and the connection is as the
    holder of the lock has left it. -/
structure Settled (s : Shop M ι) (t : ι) (g : Own) : Prop where
  turns : turns exec t m s.log = g.share.turns
  fresh : s.holder = some t → g.fresh = s.fresh

/-- The account of a task and the shop agree. -/
structure Knows (s : Shop M ι) (t : ι) (φ : Phase accounts) : Prop where
  known : Matches s t (own φ)
  flying : ∀ f, flightOf s t = some f → Flying exec m s t f φ
  settled : flightOf s t = none → Settled exec m s t (own φ)

/-- The state of the shop itself. -/
structure Order (s : Shop M ι) : Prop where
  meter : replay exec m s.log = s.meter
  unheld : s.holder = none → s.fresh = false
  unjammed : s.slot ≠ .jammed
  greets : ∀ t f, s.slot = .busy t f → s.fresh = false

/-- **The invariant**. -/
structure Inv (s : Shop M ι) (ph : ι → Phase accounts) : Prop where
  order : Order exec m s
  knows : ∀ t, Knows exec m s t (ph t)

/-- What others do is nothing to a task, as long as they leave its lock, its streams and
    its turns alone. -/
theorem Knows.frame {s s' : Shop M ι} {t : ι} {φ : Phase accounts} (h : Knows exec m s t φ)
    (hserving : s'.serving t = s.serving t) (hholder : s'.holder = some t ↔ s.holder = some t)
    (hread : s'.read t = s.read t) (hsent : s'.sent t = s.sent t)
    (hturns : turns exec t m s'.log = turns exec t m s.log)
    (hflight : flightOf s' t = flightOf s t)
    (hfresh : s.holder = some t → s'.fresh = s.fresh) : Knows exec m s' t φ where
  known := h.known.frame hserving hholder hread hsent
  flying f hf := by
    obtain ⟨hwaits, hstand, hgreeting, hunacted, hacted⟩ := h.flying f (hflight.symm.trans hf)
    refine ⟨hwaits, hstand, hgreeting, fun hr => hturns.trans (hunacted hr), fun r hr => ?_⟩
    obtain ⟨turn, htold, hseen⟩ := hacted r hr
    exact ⟨turn, htold, hturns.trans hseen⟩
  settled hf := by
    have hset := h.settled (hflight.symm.trans hf)
    exact ⟨hturns.trans hset.turns, fun hh =>
      (hset.fresh (hholder.mp hh)).trans (hfresh (hholder.mp hh)).symm⟩

/-- A step of one task. -/
theorem Inv.update {s s' : Shop M ι} {ph : ι → Phase accounts} {t : ι} {φ : Phase accounts}
    (h : Inv exec m s ph) (horder : Order exec m s') (ht : Knows exec m s' t φ)
    (hothers : ∀ u, u ≠ t → Knows exec m s u (ph u) → Knows exec m s' u (ph u)) :
    Inv exec m s' (Function.update ph t φ) where
  order := horder
  knows := forall_update ht fun u hu => hothers u hu (h.knows u)

/-- A task that waits for something else, or for nothing, has no transaction under way. -/
theorem Knows.grounded {s : Shop M ι} {t : ι} {φ : Phase accounts} (h : Knows exec m s t φ)
    (hφ : ∀ g command expects limit, φ ≠ .waiting (g, .inl (.transact command expects limit))) :
    flightOf s t = none := by
  cases hf : flightOf s t with
  | none => rfl
  | some f =>
      obtain ⟨limit, hwaits⟩ := (h.flying f hf).waits
      exact (hφ _ _ _ _ hwaits).elim

/-- **Only the holder of the lock** has a transaction under way. -/
theorem Inv.slot_free {s : Shop M ι} {ph : ι → Phase accounts} {t : ι} (h : Inv exec m s ph)
    (hholder : s.holder = none ∨ s.holder = some t) (hground : flightOf s t = none) :
    s.slot = .free := by
  cases hslot : s.slot with
  | free => rfl
  | jammed => exact absurd hslot h.order.unjammed
  | busy u f =>
      have hu := flightOf_self hslot
      have hholds : s.holder = some u :=
        (h.knows u).known.holding.mp ((h.knows u).flying f hu).stand
      obtain hnone | hsome := hholder
      · exact nomatch hnone.symm.trans hholds
      · obtain rfl := Option.some.inj (hsome.symm.trans hholds)
        exact nomatch hground.symm.trans hu

/-! ## Steps -/

/-- An event gives a task one turn more, or none. -/
theorem turns_some {log : List (Event M ι)} {e : Event M ι} {t : ι} {turn : Turn}
    (h : e.turn exec t (replay exec m log) = some turn) :
    turns exec t m (log ++ [e]) = turns exec t m log ++ [turn] := by
  rw [turns_concat, h]
  rfl

theorem turns_none {log : List (Event M ι)} {e : Event M ι} {t : ι}
    (h : e.turn exec t (replay exec m log) = none) :
    turns exec t m (log ++ [e]) = turns exec t m log := by
  rw [turns_concat, h]
  exact List.append_nil _

/-- **A task starts**, as one that has not started yet. -/
theorem Inv.start {s s' : Shop M ι} {ph : ι → Phase accounts} {t : ι} {g : Own} {e : Entry}
    (h : Inv exec m s ph) (hph : ph t = .ready g) (hs : s.start t e = some s') :
    Inv exec m s' (Function.update ph t
      (.ready ⟨.outside, false, linesOf (some e), ⟨0, [], []⟩⟩)) := by
  unfold Shop.start at hs
  by_cases hnone : (s.serving t).isNone
  swap
  · rw [if_neg hnone] at hs
    exact nomatch hs
  rw [if_pos hnone] at hs
  obtain rfl := Option.some.inj hs
  have ht := h.knows t
  rw [hph] at ht
  have hidle : g.stand = .idle := ht.known.idle.mpr (Option.isNone_iff_eq_none.mp hnone)
  have hblank : g.share = ⟨0, [], []⟩ := ht.known.blank hidle
  have hground : flightOf s t = none := ht.grounded _ _ fun _ _ _ _ heq => nomatch heq
  have hholder : ¬ s.holder = some t := fun hh =>
    nomatch hidle.symm.trans (ht.known.holding.mpr hh)
  refine h.update _ _ ⟨h.order.meter, h.order.unheld, h.order.unjammed, h.order.greets⟩ ?_ ?_
  · refine ⟨?_, fun _ hf => (nomatch hground.symm.trans hf), fun _ => ⟨?_, fun hh =>
      absurd hh hholder⟩⟩
    · exact
        { idle := by
            show _ ↔ Function.update s.serving t (some e) t = none
            rw [Function.update_self]
            exact ⟨fun heq => (nomatch heq), fun heq => nomatch heq⟩
          holding := ⟨fun heq => (nomatch heq), fun hh => absurd hh hholder⟩
          lines := by
            show _ = linesOf (Function.update s.serving t (some e) t)
            rw [Function.update_self]
            rfl
          read := (congrArg Share.read hblank).symm.trans ht.known.read
          sent := (congrArg Share.sent hblank).symm.trans ht.known.sent
          fair := fun ls _ => Upto.accounted ⟨rfl, fun _ hmem => (nomatch hmem), rfl⟩ (.inl rfl)
          blank := fun heq => nomatch heq
          fresh := fun heq => nomatch heq }
    · exact (ht.settled hground).turns.trans (congrArg Share.turns hblank)
  · intro u hu hknows
    exact hknows.frame _ _ (Function.update_of_ne hu ..) Iff.rfl rfl rfl rfl rfl fun _ => rfl

/-- **A transaction gets under way**. -/
theorem Inv.launched {s : Shop M ι} {ph : ι → Phase accounts} {t : ι} {g : Own} {command : Str}
    {expects : Bool} {limit : Rat} (h : Inv exec m s ph) (ht : Knows exec m s t (.ready g))
    (hstand : g.stand = .holding) (hslot : s.slot = .free) :
    Inv exec m
      { s with fresh := false, slot := .busy t ⟨command, expects, limit, s.fresh, none⟩ }
      (Function.update ph t (.waiting (g, .inl (.transact command expects limit)))) := by
  have hnone : ∀ u, flightOf s u = none := fun u => flightOf_free hslot
  have hset := ht.settled (hnone t)
  have hholder := ht.known.holding.mp hstand
  refine h.update _ _ ⟨h.order.meter, fun _ => rfl, fun heq => (nomatch heq), fun _ _ _ => rfl⟩
    ⟨ht.known.frame rfl Iff.rfl rfl rfl, ?_, ?_⟩ ?_
  · intro f hf
    obtain rfl := Option.some.inj ((flightOf_self rfl).symm.trans hf)
    exact ⟨⟨limit, rfl⟩, hstand, (hset.fresh hholder).symm, fun _ => hset.turns,
      fun r hr => nomatch hr⟩
  · intro hf
    exact nomatch (flightOf_self rfl).symm.trans hf
  · intro u hu hknows
    refine hknows.frame _ _ rfl Iff.rfl rfl rfl rfl ?_ fun hh => ?_
    · exact (flightOf_other rfl hu).trans (hnone u).symm
    · exact absurd (Option.some.inj (hh.symm.trans hholder)) hu

/-- **An operation is invoked**: a transaction gets under way, or nothing changes yet. -/
theorem Inv.invoke {s : Shop M ι} {ph : ι → Phase accounts} {t : ι} {g : Own} {o : Wire.Op}
    (h : Inv exec m s ph) (hph : ph t = .ready g) (hallowed : allowed g o) :
    Inv exec m (s.invoke t o) (Function.update ph t (.waiting (g, o))) := by
  have ht := h.knows t
  rw [hph] at ht
  have hground : flightOf s t = none := ht.grounded _ _ fun _ _ _ _ heq => nomatch heq
  have hfree : g.stand = .holding → s.slot = .free := fun hstand =>
    h.slot_free _ _ (.inr (ht.known.holding.mp hstand)) hground
  have hquiet : Inv exec m s (Function.update ph t (.waiting (g, o))) :=
    h.update _ _ h.order ⟨ht.known, fun _ hf => (nomatch hground.symm.trans hf), ht.settled⟩
      fun _ _ hknows => hknows
  -- nothing is under way that the holder of the lock could jam
  have htouch : g.stand = .holding → s.touch = s := fun hstand => by
    unfold Shop.touch
    rw [hfree hstand]
  cases o with
  | inr o => exact hquiet
  | inl o =>
      cases o with
      | acquire => exact hquiet
      | release => exact hquiet
      | isOpen => exact hquiet
      | open_ =>
          have heq : s.invoke t (.inl .open_) = s := htouch hallowed.1
          rw [heq]
          exact hquiet
      | close =>
          have heq : s.invoke t (.inl .close) = s := htouch hallowed
          rw [heq]
          exact hquiet
      | transact command expects limit =>
          have hslot := hfree hallowed
          unfold Shop.invoke
          dsimp only
          rw [hslot]
          exact h.launched _ _ ht hallowed hslot

/-- A task that has no transaction under way goes on. -/
theorem Knows.of_settled {s : Shop M ι} {t : ι} {g : Own} (hknown : Matches s t g)
    (hground : flightOf s t = none) (hset : Settled exec m s t g) :
    Knows exec m s t (.ready g) :=
  ⟨hknown, fun _ hf => (nomatch hground.symm.trans hf), fun _ => hset⟩

/-- **The lock is taken**. -/
theorem Inv.acquire {s : Shop M ι} {ph : ι → Phase accounts} {t : ι} {g : Own}
    (h : Inv exec m s ph) (ht : Knows exec m s t (.waiting (g, .inl .acquire)))
    (hstand : g.stand = .outside) (hfree : s.holder = none) :
    Inv exec m { s with holder := some t }
      (Function.update ph t (.ready { g with stand := .holding })) := by
  have hground : flightOf s t = none := ht.grounded _ _ fun _ _ _ _ heq => nomatch heq
  have hfresh : g.fresh = false := Bool.eq_false_iff.mpr fun hf =>
    nomatch hstand.symm.trans (ht.known.fresh hf)
  have hslot := h.slot_free _ _ (.inl hfree) hground
  -- the lock comes with a connection that whoever held it last has greeted
  refine h.update _ _ ⟨h.order.meter, fun hh => (nomatch hh), h.order.unjammed, h.order.greets⟩
    (.of_settled _ _ ?_ hground ⟨(ht.settled hground).turns, fun _ =>
      hfresh.trans (h.order.unheld hfree).symm⟩) fun u hu hknows => ?_
  · exact
      { ht.known with
        idle := ⟨fun heq => (nomatch heq), fun hs =>
          nomatch hstand.symm.trans (ht.known.idle.mpr hs)⟩
        holding := ⟨fun _ => rfl, fun _ => rfl⟩
        blank := fun heq => nomatch heq
        fresh := fun _ => rfl }
  · refine hknows.frame _ _ rfl ?_ rfl rfl rfl rfl fun _ => rfl
    show some t = some u ↔ _
    rw [hfree]
    exact ⟨fun heq => absurd (Option.some.inj heq).symm hu, fun heq => nomatch heq⟩

/-- **The lock is given back**. -/
theorem Inv.release {s : Shop M ι} {ph : ι → Phase accounts} {t : ι} {g : Own}
    (h : Inv exec m s ph) (ht : Knows exec m s t (.waiting (g, .inl .release)))
    (hstand : g.stand = .holding) (hfresh : g.fresh = false) :
    Inv exec m { s with holder := none }
      (Function.update ph t (.ready { g with stand := .outside })) := by
  have hground : flightOf s t = none := ht.grounded _ _ fun _ _ _ _ heq => nomatch heq
  have hset := ht.settled hground
  have hholder := ht.known.holding.mp hstand
  -- who holds it next finds the connection greeted, or closed
  refine h.update _ _ ⟨h.order.meter, fun _ => (hset.fresh hholder).symm.trans hfresh,
    h.order.unjammed, h.order.greets⟩
    (.of_settled _ _ ?_ hground ⟨hset.turns, fun hh => nomatch hh⟩) fun u hu hknows => ?_
  · exact
      { ht.known with
        idle := ⟨fun heq => (nomatch heq), fun hs =>
          nomatch hstand.symm.trans (ht.known.idle.mpr hs)⟩
        holding := ⟨fun heq => (nomatch heq), fun hh => nomatch hh⟩
        blank := fun heq => nomatch heq
        fresh := fun hf => nomatch hfresh.symm.trans hf }
  · refine hknows.frame _ _ rfl ?_ rfl rfl rfl rfl fun _ => rfl
    rw [hholder]
    exact ⟨fun heq => (nomatch heq), fun heq => absurd (Option.some.inj heq).symm hu⟩

/-- **Nothing comes of an operation** but that the connection may be closed. -/
theorem Inv.stay {s : Shop M ι} {ph : ι → Phase accounts} {t : ι} {g : Own}
    (h : Inv exec m s ph) (hknown : Matches s t g) (hground : flightOf s t = none)
    (hset : Settled exec m s t g) (isOpen : Bool) :
    Inv exec m { s with isOpen := isOpen } (Function.update ph t (.ready g)) :=
  h.update _ _ ⟨h.order.meter, h.order.unheld, h.order.unjammed, h.order.greets⟩
    (.of_settled _ _ (hknown.frame rfl Iff.rfl rfl rfl) hground ⟨hset.turns, hset.fresh⟩)
    fun _ _ hknows => hknows.frame _ _ rfl Iff.rfl rfl rfl rfl rfl fun _ => rfl

/-- **The connection is opened**, and not greeted yet. -/
theorem Inv.opened {s : Shop M ι} {ph : ι → Phase accounts} {t : ι} {g : Own}
    (h : Inv exec m s ph) (ht : Knows exec m s t (.waiting (g, .inl .open_)))
    (hstand : g.stand = .holding) :
    Inv exec m { s with isOpen := true, fresh := true }
      (Function.update ph t (.ready { g with fresh := true })) := by
  have hground : flightOf s t = none := ht.grounded _ _ fun _ _ _ _ heq => nomatch heq
  have hholder := ht.known.holding.mp hstand
  have hslot := h.slot_free _ _ (.inr hholder) hground
  refine h.update _ _ ⟨h.order.meter, fun hh => (nomatch hh.symm.trans hholder), h.order.unjammed,
    fun _ _ hf => nomatch hslot.symm.trans hf⟩
    (.of_settled _ _ ?_ hground ⟨(ht.settled hground).turns, fun _ => rfl⟩) fun u hu hknows => ?_
  · exact { ht.known with fresh := fun _ => hstand }
  · exact hknows.frame _ _ rfl Iff.rfl rfl rfl rfl rfl fun hh =>
      absurd (Option.some.inj (hh.symm.trans hholder)) hu

/-- **The connection is refused**: a turn of its own, that does nothing to the meter. -/
theorem Inv.refused {s : Shop M ι} {ph : ι → Phase accounts} {t : ι} {g : Own}
    (h : Inv exec m s ph) (ht : Knows exec m s t (.waiting (g, .inl .open_)))
    (hstand : g.stand = .holding)
    (hfair : Fair g.lines (g.share.push (.refused g.share.read))) :
    Inv exec m { s with log := s.log ++ [.refused t (s.read t)] }
      (Function.update ph t (.ready { g with share := g.share.push (.refused g.share.read) })) := by
  have hground : flightOf s t = none := ht.grounded _ _ fun _ _ _ _ heq => nomatch heq
  have hset := ht.settled hground
  have hread : g.share.read = s.read t := ht.known.read
  have hmeter : replay exec m (s.log ++ [.refused t (s.read t)]) = s.meter :=
    (replay_concat ..).trans h.order.meter
  have hturn : Event.turn exec t (replay exec m s.log) (.refused t (s.read t))
      = some (.refused g.share.read) := by
    rw [hread]
    exact if_pos rfl
  have hmine : turns exec t m (s.log ++ [.refused t (s.read t)])
      = g.share.turns ++ [.refused g.share.read] :=
    (turns_some _ _ hturn).trans (congrArg (· ++ _) hset.turns)
  have hother : ∀ u, u ≠ t → turns exec u m (s.log ++ [.refused t (s.read t)])
      = turns exec u m s.log := fun u hu => turns_none _ _ (if_neg (Ne.symm hu))
  refine h.update _ _ ⟨hmeter, h.order.unheld, h.order.unjammed, h.order.greets⟩
    (.of_settled _ _ ?_ hground ⟨hmine, hset.fresh⟩) fun u hu hknows => ?_
  · exact
      { ht.known with
        fair := hfair
        blank := fun heq => nomatch hstand.symm.trans heq }
  · exact hknows.frame _ _ rfl Iff.rfl rfl rfl (hother u hu) rfl fun _ => rfl

/-- **A transaction is over**: its task learns what the order has had since it acted. -/
theorem Inv.landed {s : Shop M ι} {ph : ι → Phase accounts} {t : ι} {g : Own} {command : Str}
    {expects : Bool} {limit : Rat} {f : Flight} {r : Except TransportError (Option Str)}
    (h : Inv exec m s ph)
    (ht : Knows exec m s t (.waiting (g, .inl (.transact command expects limit))))
    (hslot : s.slot = .busy t f) (hr : f.result = some r)
    (hfair : ∀ turn, Told g command expects (r.mapError .transportError) turn →
      Fair g.lines (g.share.push turn)) :
    ∃ turn, Told g command expects (r.mapError .transportError) turn ∧
      Inv exec m { s with slot := .free }
        (Function.update ph t (.ready { g with fresh := false, share := g.share.push turn })) := by
  have hflight := flightOf_self hslot
  obtain ⟨⟨limit', hwaits⟩, hstand, -, -, hacted⟩ := ht.flying f hflight
  have hop : LineOp.transact command expects limit = .transact f.command f.expects limit' :=
    Sum.inl.inj (congrArg Prod.snd (Phase.waiting.inj hwaits))
  -- the flight is the operation that the task waits for
  obtain ⟨rfl, rfl, -⟩ := LineOp.transact.inj hop
  obtain ⟨turn, htold, hturns⟩ := hacted r hr
  refine ⟨turn, htold, h.update _ _ ⟨h.order.meter, h.order.unheld, fun heq => (nomatch heq),
    fun _ _ heq => nomatch heq⟩
    (.of_settled _ _ ?_ rfl ⟨hturns, fun _ => (h.order.greets t f hslot).symm⟩)
    fun u hu hknows => ?_⟩
  · exact
      { ht.known with
        fair := hfair turn htold
        blank := fun heq => nomatch hstand.symm.trans heq
        fresh := fun heq => nomatch heq }
  · have hnone := flightOf_other hslot hu
    exact hknows.frame _ _ rfl Iff.rfl rfl rfl rfl hnone.symm fun _ => rfl

/-- **A line is read**. -/
theorem Inv.readline {s : Shop M ι} {ph : ι → Phase accounts} {t : ι} {g : Own}
    (h : Inv exec m s ph) (ht : Knows exec m s t (.waiting (g, .inr .readline)))
    (hstand : g.stand = .outside)
    (hfair : Fair g.lines { g.share with read := g.share.read + 1 }) :
    Inv exec m { s with read := Function.update s.read t (s.read t + 1) } (Function.update ph t
      (.ready { g with share := { g.share with read := g.share.read + 1 } })) := by
  have hground : flightOf s t = none := ht.grounded _ _ fun _ _ _ _ heq => nomatch heq
  have hset := ht.settled hground
  have hread : g.share.read = s.read t := ht.known.read
  have hnow : Function.update s.read t (s.read t + 1) t = s.read t + 1 := Function.update_self ..
  refine h.update _ _ ⟨h.order.meter, h.order.unheld, h.order.unjammed, h.order.greets⟩
    (.of_settled _ _ ?_ hground ⟨hset.turns, hset.fresh⟩) fun u hu hknows => ?_
  · exact
      { ht.known with
        read := (congrArg (· + 1) hread).trans hnow.symm
        fair := hfair
        blank := fun heq => nomatch hstand.symm.trans heq }
  · exact hknows.frame _ _ rfl Iff.rfl (Function.update_of_ne hu ..) rfl rfl rfl fun _ => rfl

/-- **An answer is sent**. -/
theorem Inv.write {s : Shop M ι} {ph : ι → Phase accounts} {t : ι} {g : Own} {data : Bytes}
    (h : Inv exec m s ph) (ht : Knows exec m s t (.waiting (g, .inr (.write data))))
    (hstand : g.stand = .outside)
    (hfair : Fair g.lines { g.share with sent := g.share.sent ++ [data] }) :
    Inv exec m { s with sent := Function.update s.sent t (s.sent t ++ [data]) }
      (Function.update ph t
        (.ready { g with share := { g.share with sent := g.share.sent ++ [data] } })) := by
  have hground : flightOf s t = none := ht.grounded _ _ fun _ _ _ _ heq => nomatch heq
  have hset := ht.settled hground
  have hsent : g.share.sent = s.sent t := ht.known.sent
  have hnow : Function.update s.sent t (s.sent t ++ [data]) t = s.sent t ++ [data] :=
    Function.update_self ..
  refine h.update _ _ ⟨h.order.meter, h.order.unheld, h.order.unjammed, h.order.greets⟩
    (.of_settled _ _ ?_ hground ⟨hset.turns, hset.fresh⟩) fun u hu hknows => ?_
  · exact
      { ht.known with
        sent := (congrArg (· ++ [data]) hsent).trans hnow.symm
        fair := hfair
        blank := fun heq => nomatch hstand.symm.trans heq }
  · exact hknows.frame _ _ rfl Iff.rfl rfl (Function.update_of_ne hu ..) rfl rfl fun _ => rfl

/-- **An operation on the streams comes out**. -/
theorem Inv.answer_socket {s s' : Shop M ι} {ph : ι → Phase accounts} {t : ι} {g : Own}
    {o : SocketOp} {x : Choice M} {r : Except Exc Unit} (h : Inv exec m s ph)
    (ht : Knows exec m s t (.waiting (g, .inr o))) (hallowed : g.stand = .outside)
    (hguard : ∀ r g', told g (.inr o) r g' → Fair g'.lines g'.share)
    (hs : s.answer t (.inr o) x = some (r, s')) :
    ∃ g', told g (.inr o) r g' ∧ Inv exec m s' (Function.update ph t (.ready g')) := by
  have hground : flightOf s t = none := ht.grounded _ _ fun _ _ _ _ heq => nomatch heq
  have hstay := h.stay _ _ ht.known hground (ht.settled hground) s.isOpen
  cases x with
  | done =>
      cases o with
      | readline =>
          obtain ⟨rfl, rfl⟩ := Prod.mk.inj (Option.some.inj hs)
          exact ⟨_, ⟨rfl, rfl⟩, h.readline _ _ ht hallowed (hguard _ _ ⟨rfl, rfl⟩)⟩
      | write data =>
          obtain ⟨rfl, rfl⟩ := Prod.mk.inj (Option.some.inj hs)
          exact ⟨_, ⟨rfl, rfl⟩, h.write _ _ ht hallowed (hguard _ _ ⟨rfl, rfl⟩)⟩
      | drain =>
          obtain ⟨rfl, rfl⟩ := Prod.mk.inj (Option.some.inj hs)
          exact ⟨g, ⟨rfl, rfl⟩, hstay⟩
      | close =>
          obtain ⟨rfl, rfl⟩ := Prod.mk.inj (Option.some.inj hs)
          exact ⟨g, ⟨rfl, rfl⟩, hstay⟩
      | waitClosed =>
          obtain ⟨rfl, rfl⟩ := Prod.mk.inj (Option.some.inj hs)
          exact ⟨g, ⟨rfl, rfl⟩, hstay⟩
  | fails e => cases o <;> exact nomatch hs
  | garbled result m => cases o <;> exact nomatch hs

/-- **A transaction comes out**: it has acted, and its slot is free again. -/
theorem Inv.answer_transact {s s' : Shop M ι} {ph : ι → Phase accounts} {t : ι} {g : Own}
    {command : Str} {expects : Bool} {limit : Rat} {x : Choice M}
    {r : Except Exc (Option Str)} (h : Inv exec m s ph)
    (ht : Knows exec m s t (.waiting (g, .inl (.transact command expects limit))))
    (hguard : ∀ r g', told g (.inl (.transact command expects limit)) r g' →
      Fair g'.lines g'.share)
    (hs : s.answer t (.inl (.transact command expects limit)) x = some (r, s')) :
    ∃ g', told g (.inl (.transact command expects limit)) r g' ∧
      Inv exec m s' (Function.update ph t (.ready g')) := by
  cases x with
  | fails e => exact nomatch hs
  | garbled result m =>
      cases hslot : s.slot with
      | jammed => exact absurd hslot h.order.unjammed
      | free =>
          simp only [Shop.answer, hslot] at hs
          exact nomatch hs
      | busy u f =>
          simp only [Shop.answer, hslot] at hs
          exact nomatch hs
  | done =>
      cases hslot : s.slot with
      | free =>
          simp only [Shop.answer, hslot] at hs
          exact nomatch hs
      | jammed => exact absurd hslot h.order.unjammed
      | busy u f =>
          simp only [Shop.answer, hslot] at hs
          by_cases hu : u = t
          · subst hu
            rw [if_pos rfl] at hs
            obtain ⟨res, hres, heq⟩ := Option.map_eq_some_iff.mp hs
            obtain ⟨rfl, rfl⟩ := Prod.mk.inj heq
            obtain ⟨turn, htold, hinv⟩ := h.landed _ _ ht hslot hres fun turn htold =>
              hguard _ _ ⟨turn, htold, rfl⟩
            exact ⟨_, ⟨turn, htold, rfl⟩, hinv⟩
          · rw [if_neg hu] at hs
            exact nomatch hs

/-- **The lock or the connection comes out**. -/
theorem Inv.answer_line {s s' : Shop M ι} {ph : ι → Phase accounts} {t : ι} {g : Own}
    {o : LineOp} {x : Choice M} {r : Except Exc o.Res} (h : Inv exec m s ph)
    (ht : Knows exec m s t (.waiting (g, .inl o))) (hallowed : allowed g (.inl o))
    (hguard : ∀ r g', told g (.inl o) r g' → Fair g'.lines g'.share)
    (hs : s.answer t (.inl o) x = some (r, s')) :
    ∃ g', told g (.inl o) r g' ∧ Inv exec m s' (Function.update ph t (.ready g')) := by
  cases o with
  | acquire =>
      cases x with
      | done =>
          by_cases hfree : s.holder.isNone
          · obtain ⟨rfl, rfl⟩ := Prod.mk.inj (Option.some.inj ((if_pos hfree).symm.trans hs))
            exact ⟨_, ⟨rfl, rfl⟩, h.acquire _ _ ht hallowed (Option.isNone_iff_eq_none.mp hfree)⟩
          · cases (if_neg hfree).symm.trans hs
      | _ => cases hs
  | release =>
      cases x with
      | done =>
          obtain ⟨rfl, rfl⟩ := Prod.mk.inj (Option.some.inj hs)
          exact ⟨_, ⟨rfl, rfl⟩, h.release _ _ ht hallowed.1 hallowed.2⟩
      | _ => cases hs
  | isOpen =>
      have hground := ht.grounded _ _ fun _ _ _ _ heq => nomatch heq
      cases x with
      | done =>
          obtain ⟨rfl, rfl⟩ := Prod.mk.inj (Option.some.inj hs)
          exact ⟨g, ⟨⟨_, rfl⟩, rfl⟩, h.stay _ _ ht.known hground (ht.settled hground) s.isOpen⟩
      | _ => cases hs
  | open_ =>
      cases x with
      | done =>
          obtain ⟨rfl, rfl⟩ := Prod.mk.inj (Option.some.inj hs)
          exact ⟨_, .inl ⟨rfl, rfl⟩, h.opened _ _ ht hallowed.1⟩
      | fails e =>
          obtain ⟨rfl, rfl⟩ := Prod.mk.inj (Option.some.inj hs)
          have htold : told g (.inl .open_) (.error (.transportError e)) _ := .inr ⟨⟨e, rfl⟩, rfl⟩
          exact ⟨_, htold, h.refused _ _ ht hallowed.1 (hguard _ _ htold)⟩
      | garbled => cases hs
  | close =>
      have hground := ht.grounded _ _ fun _ _ _ _ heq => nomatch heq
      have hstay := h.stay _ _ ht.known hground (ht.settled hground) false
      cases x with
      | done =>
          obtain ⟨rfl, rfl⟩ := Prod.mk.inj (Option.some.inj hs)
          exact ⟨g, ⟨.inl rfl, rfl⟩, hstay⟩
      | fails e =>
          obtain ⟨rfl, rfl⟩ := Prod.mk.inj (Option.some.inj hs)
          exact ⟨g, ⟨.inr ⟨e, rfl⟩, rfl⟩, hstay⟩
      | garbled => cases hs
  | transact command expects limit => exact h.answer_transact _ _ ht hguard hs

/-- **An operation comes out**, and tells its task what the order has. -/
theorem Inv.answer {s s' : Shop M ι} {ph : ι → Phase accounts} {t : ι} {w : Own × Wire.Op}
    {o : Wire.Op} {x : Choice M} {r : Except Exc (Wire.Res o)} (h : Inv exec m s ph)
    (hph : ph t = .waiting w) (hinv : ∃ g, accounts.invoke g o w)
    (hs : s.answer t o x = some (r, s')) :
    ∃ g', accounts.answer w o r g' ∧ Inv exec m s' (Function.update ph t (.ready g')) := by
  obtain ⟨g, rfl, hallowed, hguard⟩ := hinv
  have ht := h.knows t
  rw [hph] at ht
  cases o with
  | inl o => exact h.answer_line _ _ ht hallowed hguard hs
  | inr o => exact h.answer_socket _ _ ht hallowed hguard hs

/-- **The front panel** changes the meter, and gives no task a turn. -/
theorem Inv.panel {s : Shop M ι} {ph : ι → Phase accounts} (h : Inv exec m s ph) (m' : M) :
    Inv exec m { s with meter := m', log := s.log ++ [.panel m'] } ph where
  order := ⟨replay_concat .., h.order.unheld, h.order.unjammed, h.order.greets⟩
  knows t := (h.knows t).frame _ _ rfl Iff.rfl rfl rfl (turns_none _ _ rfl) rfl fun _ => rfl

/-- **A transaction acts on the meter**, and its task has a turn in the order. -/
theorem Inv.ran {s : Shop M ι} {ph : ι → Phase accounts} {t : ι} {f : Flight}
    {executed success : Bool} {r : Except TransportError (Option Str)} {turn : Turn}
    (h : Inv exec m s ph) (hslot : s.slot = .busy t f) (hunacted : f.result = none)
    (hturn : Event.turn exec t s.meter
      (.ran t (s.read t) f.greeting f.command f.expects executed success) = some turn)
    (htold : Told (own (ph t)) f.command f.expects (r.mapError .transportError) turn) :
    Inv exec m { s with
      meter := if executed then (exec s.meter f.command).2 else s.meter
      slot := .busy t { f with result := some r }
      log := s.log ++ [.ran t (s.read t) f.greeting f.command f.expects executed success] } ph := by
  have hflight := flightOf_self hslot
  obtain ⟨hwaits, hstand, hgreeting, hseen, -⟩ := (h.knows t).flying f hflight
  have hmeter := (replay_concat exec m s.log
    (.ran t (s.read t) f.greeting f.command f.expects executed success)).trans
      (congrArg (Event.apply exec · _) h.order.meter)
  refine ⟨⟨hmeter, h.order.unheld, fun heq => (nomatch heq), ?_⟩, fun u => ?_⟩
  · exact fun _ _ _ => h.order.greets t f hslot
  · -- the task itself is not told yet; the others see a turn that is not theirs
    by_cases hu : u = t
    · subst hu
      refine ⟨(h.knows u).known.frame rfl Iff.rfl rfl rfl, fun f' hf' => ?_, fun hnone => ?_⟩
      · obtain rfl := Option.some.inj ((if_pos rfl).symm.trans hf')
        have hmine := (turns_some exec m ((congrArg (Event.turn exec u · _) h.order.meter).trans
          hturn)).trans (congrArg (· ++ _) (hseen hunacted))
        refine ⟨hwaits, hstand, hgreeting, fun hnone => (nomatch hnone), fun r' hr' => ?_⟩
        obtain rfl := Option.some.inj hr'
        exact ⟨turn, htold, hmine⟩
      · exact nomatch (if_pos rfl).symm.trans hnone
    · have hnone := flightOf_other hslot hu
      exact (h.knows u).frame _ _ rfl Iff.rfl rfl rfl (turns_none _ _ (if_neg (Ne.symm hu)))
        ((if_neg (Ne.symm hu)).trans hnone.symm) fun _ => rfl

omit [DecidableEq ι] in
/-- What a transaction that the transport completes tells its task. -/
theorem told_complete {g : Own} {f : Flight} {reply : Option Str} (hgreeting : f.greeting = g.fresh)
    (hascii : g.lines.isSome = true → f.greeting = false → f.expects = true →
      ∀ a, reply = some a → isAscii a = true) :
    Told g f.command f.expects ((f.complete reply).mapError .transportError)
      (.ran g.share.read f.greeting f.command f.expects (!(f.expects && reply.isNone))
        (if !(f.expects && reply.isNone) && f.expects then reply else none)) := by
  obtain ⟨command, expects, limit, greeting, result⟩ := f
  obtain rfl : greeting = g.fresh := hgreeting
  cases expects with
  | false => exact .inl ⟨none, rfl, rfl, rfl, fun _ _ a ha => nomatch ha⟩
  | true =>
      cases reply with
      | none => exact .inr ⟨.noResponse command limit, rfl, rfl⟩
      | some a => exact .inl ⟨some a, rfl, rfl, rfl, fun hl hf => hascii hl hf rfl⟩

/-- **What happens to a transaction** is what its task will be told. -/
theorem Inv.act {s s' : Shop M ι} {ph : ι → Phase accounts} {t : ι} {f : Flight} {fate : Fate}
    (h : Inv exec m s ph) (hslot : s.slot = .busy t f) (hunacted : f.result = none)
    (hascii : AsciiAnswers exec timeout s (.env (.act fate)) s')
    (hs : s.act exec t f fate = some s') : Inv exec m s' ph := by
  have hflight := flightOf_self hslot
  have hgreeting := ((h.knows t).flying f hflight).greeting
  have hread := (h.knows t).known.read
  have hlines := (h.knows t).known.lines
  cases fate with
  | fails executed e =>
      obtain rfl := Option.some.inj hs
      refine h.ran _ _ hslot hunacted (if_pos rfl) (.inr ⟨e, rfl, ?_⟩)
      rw [hread, ← hgreeting]
      rfl
  | completes =>
      -- a transaction runs on an open port only
      by_cases hopen : s.isOpen
      · obtain rfl := Option.some.inj ((if_pos hopen).symm.trans hs)
        have hturn : Event.turn exec t s.meter (.ran t (s.read t) f.greeting f.command f.expects
            true (!(f.expects && (exec s.meter f.command).1.isNone))) = some _ := if_pos rfl
        refine (h.ran _ _ hslot hunacted hturn ?_ :)
        rw [← hread]
        have hanswer : UnderWay _ s.slot := hascii
        rw [hslot] at hanswer
        exact told_complete hgreeting fun hclient hf hexpects a ha =>
          hanswer ((congrArg Option.isSome hlines).symm.trans hclient) hf hexpects a ha
      · exact nomatch (if_neg hopen).symm.trans hs

/-- **What the surroundings do** keeps the invariant. -/
theorem Inv.env {s s' : Shop M ι} {ph : ι → Phase accounts} {x : Env M} (h : Inv exec m s ph)
    (hascii : AsciiAnswers exec timeout s (.env x) s') (hs : s.env exec x = some s') :
    Inv exec m s' ph := by
  cases x with
  | panel m' =>
      obtain rfl := Option.some.inj hs
      exact h.panel _ _ m'
  | act fate =>
      unfold Shop.env at hs
      cases hslot : s.slot with
      | free =>
          rw [hslot] at hs
          exact nomatch hs
      | jammed =>
          rw [hslot] at hs
          exact nomatch hs
      | busy t f =>
          rw [hslot] at hs
          dsimp only at hs
          by_cases hunacted : f.result.isNone
          · rw [if_pos hunacted] at hs
            exact h.act _ timeout _ hslot (Option.isNone_iff_eq_none.mp hunacted) hascii hs
          · rw [if_neg hunacted] at hs
            exact nomatch hs

/-! ## Whole runs -/

/-- **Every step keeps the invariant**. -/
theorem sound : Sound accounts (clients exec timeout : System Wire Exc Unit ι (Shop M ι))
    (AsciiAnswers exec timeout) Ends (Inv exec m) where
  start {s s' ph t e g r} h hph _ _ hs := by
    refine ⟨_, ?_, h.start _ _ hph hs⟩
    cases e with
    | client ls =>
        refine Protocol.wp_mono (wp_handleClient timeout) ?_
        rintro r g ⟨rfl, v', rfl, hcomplete⟩ _ ⟨⟩
        exact ⟨rfl, hcomplete⟩
    | other p =>
        refine Protocol.wp_mono (wp_other timeout p) ?_
        intro r g hnone ls hls
        exact nomatch hnone.symm.trans hls
  invoke {s ph t o g w} h hph hinv _ := by
    -- that every outcome is accounted for matters only once there is one
    obtain ⟨rfl, hallowed, -⟩ := hinv
    exact h.invoke _ _ hph hallowed
  answer h hph hinv _ hs := h.answer _ _ hph hinv hs
  env h hok hs := h.env _ timeout _ hok hs

/-- Nobody has started. -/
theorem inv_initial (isOpen : Bool) :
    Inv exec m (initial m isOpen : Config Wire Exc Unit ι (Shop M ι)).shared
      (fun _ => .ready ⟨.idle, false, none, ⟨0, [], []⟩⟩) where
  order := ⟨rfl, fun _ => rfl, fun h => (nomatch h), fun _ _ h => nomatch h⟩
  knows t := by
    refine .of_settled _ _ ?_ rfl ⟨rfl, fun h => nomatch h⟩
    exact
      { idle := ⟨fun _ => rfl, fun _ => rfl⟩
        holding := ⟨fun h => (nomatch h), fun h => nomatch h⟩
        lines := rfl
        read := rfl
        sent := rfl
        fair := fun _ h => nomatch h
        blank := fun _ => rfl
        fresh := fun h => nomatch h }

/-- The share of a task in the order, by what it knows. -/
theorem Matches.share_eq {s : Shop M ι} {t : ι} {g : Own} {seen : List Turn}
    (h : Matches s t g) (hseen : turns exec t m s.log = seen) :
    share exec m s t = { g.share with turns := seen } := by
  unfold share
  rw [← h.read, ← h.sent, hseen]

/-- **EVERY INTERLEAVING IS ONE ORDER**: along every run of any number of clients, with
    pollers and web requests on the same manager, with changes at the front panel and any
    failures, if what the meter answers to the clients' own queries is ASCII. -/
theorem serialised (isOpen : Bool) {c : Config Wire Exc Unit ι (Shop M ι)}
    (h : Reach (clients exec timeout) (AsciiAnswers exec timeout) (initial m isOpen) c) :
    Serialised exec m c := by
  have hidle : ∀ t, Agrees accounts Ends ((initial (ι := ι) m isOpen).point t)
      (.ready ⟨.idle, false, none, ⟨0, [], []⟩⟩) := fun t ls hls => nomatch hls
  obtain ⟨ph, hinv, hagrees⟩ :=
    (sound exec timeout m).reach (inv_initial exec m isOpen) hidle h
  refine ⟨hinv.order.meter, fun t lines hserving => ?_, fun t lines r hserving hr => ?_⟩
  · have ht := hinv.knows t
    have hlines : (own (ph t)).lines = some lines :=
      ht.known.lines.trans (congrArg linesOf hserving)
    cases hf : flightOf c.shared t with
    | none =>
        rw [ht.known.share_eq exec m (ht.settled hf).turns]
        exact ht.known.fair lines hlines
    | some f =>
        have hfly := ht.flying f hf
        cases hres : f.result with
        | none =>
            rw [ht.known.share_eq exec m (hfly.unacted hres)]
            exact ht.known.fair lines hlines
        | some r =>
            -- the task has not been told yet, but it is accounted for whatever it is told
            obtain ⟨turn, htold, hturns⟩ := hfly.acted r hres
            obtain ⟨limit, hwaits⟩ := hfly.waits
            have hwaiting := hagrees t
            rw [hwaits] at hwaiting
            obtain ⟨g, o, heq, -, hguard⟩ := hwaiting.invoked
            obtain ⟨rfl, rfl⟩ := Prod.mk.inj heq
            rw [ht.known.share_eq exec m hturns]
            exact hguard _ _ ⟨turn, htold, rfl⟩ lines hlines
  · obtain ⟨g, hg, hends⟩ := (hagrees t).outcome hr
    have ht := hinv.knows t
    rw [hg] at ht
    have hground := ht.grounded _ _ fun _ _ _ _ heq => nomatch heq
    obtain ⟨hok, hcomplete⟩ := hends lines (ht.known.lines.trans (congrArg linesOf hserving))
    rw [ht.known.share_eq exec m (ht.settled hground).turns]
    exact ⟨hok, hcomplete⟩

/-! ## Two runs on the mock -/

instance (P : ι → Flight → Prop) [∀ t f, Decidable (P t f)] (slot : Slot ι) :
    Decidable (UnderWay P slot) :=
  match slot with
  | .busy t f => inferInstanceAs (Decidable (P t f))
  | .free => .isTrue trivial
  | .jammed => .isTrue trivial

instance (s : Shop M ι) (a : Action (clients exec timeout : System _ _ _ ι _)) (s' : Shop M ι) :
    Decidable (AsciiAnswers exec timeout s a s') :=
  match a with
  | .env (.act .completes) => inferInstanceAs (Decidable (UnderWay _ s.slot))
  | .env (.act (.fails _ _)) => .isTrue trivial
  | .env (.panel _) => .isTrue trivial
  | .start _ _ => .isTrue trivial
  | .invoke _ => .isTrue trivial
  | .answer _ _ => .isTrue trivial

/-- What the mock makes of a command. -/
def mockExec : Mock.MockTransport → Str → Option Str × Mock.MockTransport :=
  (Turns.mockMeter fun _ => "0.0".toList).exec

/-- A client asks the mock for the range, in resistance. -/
def asksRange : List ClientLine :=
  [⟨"CONF:RES".toList.map fun c => c.toNat.toUInt8, by decide⟩,
   ⟨"RANGE?".toList.map fun c => c.toNat.toUInt8, by decide⟩]

/-- An action of the run below. -/
abbrev Act : Type := Action (clients mockExec 2 : System Wire Exc Unit Bool _)

/-- An operation that comes out at once. -/
def op (t : Bool) : List Act := [.invoke t, .answer t .done]

/-- A line is read, and its transaction runs on an open transport. -/
def line (t : Bool) (fate : Fate) : List Act :=
  op t ++ op t ++ op t ++ [.invoke t, .env (.act fate), .answer t .done] ++ op t

/-- **An answer that is not sent**: `5KΩ` cannot be encoded, and the session ends. -/
theorem not_serialised :
    ¬ ∀ (M ι : Type) (_ : DecidableEq ι) (exec : M → Str → Option Str × M) (timeout : Rat)
      (m : M) (isOpen : Bool) (c : Config Wire Exc Unit ι (Shop M ι)),
      Reach (clients exec timeout) Free (initial m isOpen) c → Serialised exec m c := by
  intro h
  have hrun : ((run (clients mockExec 2) (initial {} true)
      ([.start false (.client asksRange)] ++ line false .completes ++ line false .completes
        ++ op false ++ op false)).map fun c =>
        ((c.point false).outcome.isSome, (linesOf (c.shared.serving false)).isSome,
          c.shared.sent false, (turns mockExec false {} c.shared.log).filterMap answer)) =
      some (true, true, [], ["5KΩ".toList]) := by
    decide +kernel
  obtain ⟨c, hc, hend⟩ := Option.map_eq_some_iff.mp hrun
  obtain ⟨hended, hend⟩ := Prod.mk.inj hend
  obtain ⟨hclient, hend⟩ := Prod.mk.inj hend
  obtain ⟨hsent, hanswers⟩ := Prod.mk.inj hend
  obtain ⟨r, hr⟩ := Option.isSome_iff_exists.mp hended
  obtain ⟨lines, hlines⟩ := Option.isSome_iff_exists.mp hclient
  have hserialised := h _ Bool inferInstance mockExec 2 {} true c
    (reach_of_run hc fun _ _ _ _ => trivial)
  obtain ⟨-, hcomplete⟩ := hserialised.complete false lines r (client_of_linesOf hlines) hr
  -- the order answers, and nothing was sent
  have hall : (c.shared.sent false).map some
      = ((turns mockExec false {} c.shared.log).filterMap answer).map replyBytes := hcomplete.sent
  rw [hsent, hanswers] at hall
  exact nomatch hall

/-- A client asks for the measured value. -/
def asksValue : List ClientLine := [⟨"MEAS1?".toList.map fun c => c.toNat.toUInt8, by decide⟩]

/-- Two clients: one waits for the lock while the other's query runs, and loses its own to a
    failure of the transport, after a change at the front panel. -/
def shared : List Act :=
  [.start false (.client asksValue), .start true (.client asksRange)]
    ++ op false ++ op true ++ op false ++ [.invoke true] ++ op false
    ++ [.invoke false, .env (.act .completes), .answer false .done] ++ op false
    ++ [.answer true .done, .env (.panel { function := .RESISTANCE })] ++ op true
    ++ [.invoke true, .env (.act (.fails true .notOpen)), .answer true .done] ++ op true ++ op true
    ++ op false ++ op false ++ op false ++ op false ++ op false

/-- One order for these two. -/
theorem serialised_shared : ∃ c, runWithin (clients mockExec 2) (AsciiAnswers mockExec 2)
      (initial {} true) shared = some c ∧ Serialised mockExec {} c := by
  have hrun : (runWithin (clients mockExec 2) (AsciiAnswers mockExec 2)
      (initial {} true) shared).isSome = true := by
    decide +kernel
  obtain ⟨c, hc⟩ := Option.isSome_iff_exists.mp hrun
  exact ⟨c, hc, serialised mockExec 2 {} true (reach_of_runWithin hc)⟩

end Serialisation
