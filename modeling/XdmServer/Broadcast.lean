import XdmServer.Channel
import Mathlib.Data.List.Nodup
import Mathlib.Data.List.Perm.Basic

/-! # The broadcaster

    `web/broadcast.py`: subscriptions with a bounded queue each, and a broadcaster
    that hands every published reading to all that are registered.  `ι` names the
    subscription objects.  None of the operations waits, `__anext__` apart, so each is
    one step; `__anext__` is possible once the queue holds something.

    Seen from one subscription a run is a run of `Channel.Reader` over the events that
    concern it (`run_reader`), whatever the others do. -/

namespace Broadcast

open Channel

variable {ι R : Type}

/-- `Subscription`: its queue and its count of dropped readings. -/
structure Subscription (R : Type) where
  queue : Queue R
  dropped : Nat

/-- The default of `maxsize`. -/
def defaultMaxsize : Nat := 100

/-- A subscription that nothing was put in. -/
def Subscription.init (maxsize : Nat) : Subscription R := ⟨.empty maxsize, 0⟩

/-- `_deliver`: `put_nowait`, and where that raises `QueueFull` one more is dropped. -/
def Subscription.deliver (subscription : Subscription R) (reading : R) : Subscription R :=
  match subscription.queue.putNowait reading with
  | some queue => { subscription with queue := queue }
  | none => { subscription with dropped := subscription.dropped + 1 }

/-- `Broadcaster`: the set of registered subscriptions, in the order in which it is
    iterated over. -/
structure Broadcaster (ι : Type) where
  subscriptions : List ι
  nodup : subscriptions.Nodup

namespace Broadcaster

/-- A broadcaster without subscriptions. -/
def init : Broadcaster ι := ⟨[], .nil⟩

@[simp] theorem init_subscriptions : (init : Broadcaster ι).subscriptions = [] := rfl

variable [DecidableEq ι]

/-- `set.add`. -/
def register (b : Broadcaster ι) (i : ι) : Broadcaster ι :=
  ⟨b.subscriptions.insert i, b.nodup.insert⟩

/-- `set.discard`. -/
def unregister (b : Broadcaster ι) (i : ι) : Broadcaster ι :=
  ⟨b.subscriptions.erase i, b.nodup.erase i⟩

@[simp] theorem mem_register {b : Broadcaster ι} {i j : ι} :
    j ∈ (b.register i).subscriptions ↔ j = i ∨ j ∈ b.subscriptions :=
  List.mem_insert_iff

@[simp] theorem mem_unregister {b : Broadcaster ι} {i j : ι} :
    j ∈ (b.unregister i).subscriptions ↔ j ≠ i ∧ j ∈ b.subscriptions :=
  b.nodup.mem_erase_iff

end Broadcaster

/-- The broadcaster, the subscription objects, and what each one's consumer has been
    given by `__anext__`. -/
structure State (ι R : Type) where
  broadcaster : Broadcaster ι
  subscription : ι → Subscription R
  taken : ι → List R

/-- What happens on a broadcaster. -/
inductive Event (ι R : Type) where
  | publish (reading : R)
  | enter (i : ι)
  | exit (i : ι)
  | next (i : ι)
  deriving DecidableEq

variable [DecidableEq ι]

/-- `for subscription in list(self._subscriptions): subscription._deliver(reading)`. -/
def deliverAll (reading : R) (is : List ι) (subscription : ι → Subscription R) :
    ι → Subscription R :=
  is.foldl (fun s i => Function.update s i ((s i).deliver reading)) subscription

namespace State

/-- Subscriptions that have been created with the given sizes. -/
def init (maxsize : ι → Nat) : State ι R where
  broadcaster := .init
  subscription i := .init (maxsize i)
  taken _ := []

/-- `Broadcaster.publish`. -/
def publish (s : State ι R) (reading : R) : State ι R :=
  { s with subscription := deliverAll reading s.broadcaster.subscriptions s.subscription }

/-- `Subscription.__aenter__`. -/
def enter (s : State ι R) (i : ι) : State ι R :=
  { s with broadcaster := s.broadcaster.register i }

/-- `Subscription.__aexit__`. -/
def exit (s : State ι R) (i : ι) : State ι R :=
  { s with broadcaster := s.broadcaster.unregister i }

/-- `Subscription.__anext__`: what `queue.get` returns, if it returns. -/
def next (s : State ι R) (i : ι) : Option (R × State ι R) :=
  (s.subscription i).queue.getNowait.map fun (reading, queue) =>
    (reading, { s with
      subscription := Function.update s.subscription i { s.subscription i with queue := queue }
      taken := Function.update s.taken i (s.taken i ++ [reading]) })

/-- One step of the run. -/
def step (s : State ι R) : Event ι R → Option (State ι R)
  | .publish reading => some (s.publish reading)
  | .enter i => some (s.enter i)
  | .exit i => some (s.exit i)
  | .next i => (s.next i).map Prod.snd

/-- Events, one after the other; `none` if one of them cannot be. -/
def run (s : State ι R) (events : List (Event ι R)) : Option (State ι R) :=
  Transition.run step s events

end State

/-! ## One subscription -/

/-- What an event is to the subscription `i`. -/
def Event.own (i : ι) : Event ι R → Option (Channel.Event R)
  | .publish reading => some (.publish reading)
  | .enter j => if j = i then some .join else none
  | .exit j => if j = i then some .leave else none
  | .next j => if j = i then some .take else none

/-- The events of a run that concern `i`: the publications, and its own joining,
    leaving and consuming. -/
def ownEvents (i : ι) (events : List (Event ι R)) : List (Channel.Event R) :=
  events.filterMap (Event.own i)

/-- The readings published while `i` is registered. -/
def published (i : ι) (events : List (Event ι R)) : List R := heard false (ownEvents i events)

/-- The subscription `i` and its consumer, as a reader on its own. -/
def State.reader (s : State ι R) (i : ι) : Reader R where
  registered := i ∈ s.broadcaster.subscriptions
  queue := (s.subscription i).queue
  dropped := (s.subscription i).dropped
  taken := s.taken i

/-- **Each registered subscription is delivered to once**, the others not at all. -/
theorem deliverAll_apply (reading : R) {is : List ι} (hnodup : is.Nodup)
    (subscription : ι → Subscription R) (i : ι) :
    deliverAll reading is subscription i =
      if i ∈ is then (subscription i).deliver reading else subscription i := by
  induction is generalizing subscription with
  | nil => rfl
  | cons j is ih =>
      obtain ⟨hj, hrest⟩ := List.nodup_cons.mp hnodup
      rw [deliverAll, List.foldl_cons]
      refine (ih hrest _).trans ?_
      by_cases hij : i = j
      · subst hij
        rw [if_neg hj, if_pos (List.mem_cons_self ..), Function.update_self]
      · rw [Function.update_of_ne hij]
        simp only [List.mem_cons, hij, false_or]

/-- **The order of the set does not matter**: iterating over it in any other order
    delivers the same. -/
theorem deliverAll_perm (reading : R) {is js : List ι} (hperm : is.Perm js)
    (hnodup : is.Nodup) (subscription : ι → Subscription R) :
    deliverAll reading is subscription = deliverAll reading js subscription := by
  funext i
  rw [deliverAll_apply reading hnodup, deliverAll_apply reading (hperm.nodup hnodup)]
  simp only [hperm.mem_iff]

theorem reader_publish (s : State ι R) (reading : R) (i : ι) :
    (s.reader i).step (.publish reading) = some ((s.publish reading).reader i) := by
  have hsub := deliverAll_apply reading s.broadcaster.nodup s.subscription i
  rw [Reader.step]
  by_cases hi : i ∈ s.broadcaster.subscriptions
  · rw [if_pos hi] at hsub
    rw [if_pos (show (s.reader i).registered = true from decide_eq_true hi)]
    simp only [State.reader, State.publish, hsub, Subscription.deliver, Reader.offer]
    cases (s.subscription i).queue.putNowait reading <;> rfl
  · rw [if_neg hi] at hsub
    rw [if_neg (show ¬ (s.reader i).registered = true from by simpa [State.reader] using hi)]
    simp only [State.reader, State.publish, hsub]
    rfl

/-- `__anext__` of one subscription is a step of its reader, and of no other. -/
theorem reader_next {s s' : State ι R} {i j : ι} (hs : s.step (.next j) = some s') :
    if j = i then (s.reader i).step .take = some (s'.reader i)
    else s'.reader i = s.reader i := by
  obtain ⟨⟨r, s₁⟩, hnext, rfl⟩ := Option.map_eq_some_iff.mp hs
  obtain ⟨⟨r', q⟩, hq, heq⟩ := Option.map_eq_some_iff.mp hnext
  obtain ⟨rfl, rfl⟩ := Prod.mk.inj heq
  by_cases hij : j = i
  · subst hij
    rw [if_pos rfl]
    simp only [State.reader, Reader.step, hq, Option.map_some, Function.update_self]
  · rw [if_neg hij]
    simp only [State.reader, Function.update_of_ne (Ne.symm hij)]

/-- **An event of its own**, and every publication, is a step of the reader. -/
theorem step_own {s s' : State ι R} {e : Event ι R} {i : ι} {e' : Channel.Event R}
    (hs : s.step e = some s') (hown : e.own i = some e') :
    (s.reader i).step e' = some (s'.reader i) := by
  cases e with
  | publish reading =>
      obtain rfl := Option.some.inj hs
      obtain rfl := Option.some.inj hown
      exact reader_publish s reading i
  | enter j =>
      obtain rfl := Option.some.inj hs
      obtain ⟨rfl, hjoin⟩ := Option.ite_none_right_eq_some.mp hown
      obtain rfl := Option.some.inj hjoin
      simp [State.enter, State.reader, Reader.step]
  | exit j =>
      obtain rfl := Option.some.inj hs
      obtain ⟨rfl, hleave⟩ := Option.ite_none_right_eq_some.mp hown
      obtain rfl := Option.some.inj hleave
      simp [State.exit, State.reader, Reader.step]
  | next j =>
      obtain ⟨rfl, htake⟩ := Option.ite_none_right_eq_some.mp hown
      obtain rfl := Option.some.inj htake
      simpa only [if_pos] using reader_next (i := j) hs

/-- **An event of another subscription** leaves the reader as it is. -/
theorem step_other {s s' : State ι R} {e : Event ι R} {i : ι} (hs : s.step e = some s')
    (hown : e.own i = none) : s'.reader i = s.reader i := by
  cases e with
  | publish reading => exact absurd hown (by simp [Event.own])
  | enter j =>
      obtain rfl := Option.some.inj hs
      have hij : ¬ i = j := by simpa [Event.own, eq_comm] using hown
      simp [State.enter, State.reader, hij]
  | exit j =>
      obtain rfl := Option.some.inj hs
      have hij : ¬ i = j := by simpa [Event.own, eq_comm] using hown
      simp [State.exit, State.reader, hij]
  | next j =>
      have hij : ¬ j = i := by simpa [Event.own] using hown
      simpa only [if_neg hij] using reader_next (i := i) hs

/-- **A run, seen from one subscription**, is the reader's run of its own events. -/
theorem run_reader {s s' : State ι R} {events : List (Event ι R)}
    (hrun : s.run events = some s') (i : ι) :
    (s.reader i).run (ownEvents i events) = some (s'.reader i) := by
  refine Transition.run_project (f := fun s : State ι R => s.reader i) ?_ ?_ hrun
  · intro s e s' e' hs hown
    exact step_own hs hown
  · intro s e s' hs hown
    exact step_other hs hown

theorem reader_init (maxsize : ι → Nat) (i : ι) :
    (State.init maxsize : State ι R).reader i = Reader.init (maxsize i) := by
  simp [State.init, State.reader, Reader.init, Subscription.init]

/-- The size of a queue does not change. -/
theorem run_maxsize {maxsize : ι → Nat} {s : State ι R} {events : List (Event ι R)}
    (hrun : (State.init maxsize).run events = some s) (i : ι) :
    (s.subscription i).queue.maxsize = maxsize i := by
  have hread := run_reader hrun i
  rw [reader_init] at hread
  exact Reader.run_maxsize hread

/-! ## One operation -/

/-- A registered subscription with room receives the reading at the end of its queue. -/
theorem publish_items {s : State ι R} {i : ι} (hi : i ∈ s.broadcaster.subscriptions)
    (hroom : ¬ (s.subscription i).queue.Full) (reading : R) :
    ((s.publish reading).subscription i).queue.items =
      (s.subscription i).queue.items ++ [reading] := by
  have hsub := deliverAll_apply reading s.broadcaster.nodup s.subscription i
  rw [if_pos hi] at hsub
  obtain ⟨hfull, _⟩ | ⟨_, q, hput, hitems, _⟩ := (s.subscription i).queue.putNowait_cases reading
  · exact absurd hfull hroom
  · simp only [State.publish, hsub, Subscription.deliver, hput]
    exact hitems

theorem publish_other {s : State ι R} {i : ι} (hi : i ∉ s.broadcaster.subscriptions)
    (reading : R) : (s.publish reading).subscription i = s.subscription i := by
  have hsub := deliverAll_apply reading s.broadcaster.nodup s.subscription i
  rw [if_neg hi] at hsub
  exact hsub

/-- **What `__anext__` does**: the head of the queue goes to the consumer, the other
    subscriptions stay as they are. -/
theorem next_eq_some {s s' : State ι R} {i : ι} {reading : R}
    (h : s.next i = some (reading, s')) :
    (s.subscription i).queue.items = reading :: (s'.subscription i).queue.items ∧
    s'.broadcaster = s.broadcaster ∧
    ∀ j, j ≠ i → s'.subscription j = s.subscription j := by
  obtain ⟨⟨r, q⟩, hq, heq⟩ := Option.map_eq_some_iff.mp h
  obtain ⟨rfl, rfl⟩ := Prod.mk.inj heq
  refine ⟨?_, rfl, fun j hj => Function.update_of_ne hj _ _⟩
  simp only [Function.update_self]
  exact (Queue.getNowait_eq_some hq).1

/-! ## Several publications -/

theorem foldl_publish_broadcaster (readings : List R) (s : State ι R) :
    (readings.foldl State.publish s).broadcaster = s.broadcaster := by
  induction readings generalizing s with
  | nil => rfl
  | cons reading readings ih => exact ih (s.publish reading)

theorem foldl_publish_taken (readings : List R) (s : State ι R) :
    (readings.foldl State.publish s).taken = s.taken := by
  induction readings generalizing s with
  | nil => rfl
  | cons reading readings ih => exact ih (s.publish reading)

/-- What is delivered leaves no queue empty: it is put, or the queue is full. -/
theorem Subscription.items_deliver (subscription : Subscription R) (reading : R) :
    (subscription.deliver reading).queue.items ≠ [] := by
  obtain ⟨hfull, hput⟩ | ⟨-, q, hput, hitems, -⟩ :=
    Channel.Queue.putNowait_cases subscription.queue reading
  · have hlength := hfull.length_eq
    have hpos := hfull.1
    simp only [Subscription.deliver, hput]
    intro hnil
    rw [hnil, List.length_nil] at hlength
    omega
  · simp [Subscription.deliver, hput, hitems]

/-- After a publication no registered subscription has an empty queue, and no queue has been
    emptied. -/
theorem items_foldl_publish {readings : List R} {s : State ι R} {i : ι}
    (h : (s.subscription i).queue.items ≠ [] ∨
      i ∈ s.broadcaster.subscriptions ∧ readings ≠ []) :
    ((readings.foldl State.publish s).subscription i).queue.items ≠ [] := by
  induction readings generalizing s with
  | nil => exact h.resolve_right fun h => h.2 rfl
  | cons reading readings ih =>
      refine ih (.inl ?_)
      show (deliverAll reading s.broadcaster.subscriptions s.subscription i).queue.items ≠ []
      rw [deliverAll_apply reading s.broadcaster.nodup]
      by_cases hi : i ∈ s.broadcaster.subscriptions
      · rw [if_pos hi]
        exact (s.subscription i).items_deliver reading
      · rw [if_neg hi]
        exact h.resolve_right fun h => hi h.1

/-- **The account of a subscription** over several publications. -/
theorem account_foldl_publish (readings : List R) {s : State ι R} {i : ι} {h : List R}
    (ha : Reader.Account h (s.reader i)) :
    Reader.Account (h ++ if i ∈ s.broadcaster.subscriptions then readings else [])
      ((readings.foldl State.publish s).reader i) := by
  induction readings generalizing s h with
  | nil =>
      rw [ite_self, List.append_nil]
      exact ha
  | cons reading readings ih =>
      have hstep := Reader.step_account ha (reader_publish s reading i)
      have hrest := ih hstep
      rw [List.append_assoc] at hrest
      by_cases hi : i ∈ s.broadcaster.subscriptions
      · rw [if_pos hi]
        rw [if_pos (show i ∈ (s.publish reading).broadcaster.subscriptions from hi),
          show (s.reader i).registered = true from decide_eq_true hi] at hrest
        exact hrest
      · rw [if_neg hi]
        rw [if_neg (show i ∉ (s.publish reading).broadcaster.subscriptions from hi),
          show (s.reader i).registered = false from decide_eq_false hi] at hrest
        exact hrest

/-! ## Conservation -/

/-- **Fan-out conserves readings**, for every subscription on its own. -/
theorem fan_out_conserves {maxsize : ι → Nat} {events : List (Event ι R)} {s : State ι R}
    (hrun : (State.init maxsize).run events = some s) {i : ι} (hpos : 1 ≤ maxsize i) :
    let queued := (s.subscription i).queue.items
    (s.taken i ++ queued).Sublist (published i events) ∧
    (s.taken i ++ queued).length + (s.subscription i).dropped =
      (published i events).length ∧
    queued.length ≤ maxsize i ∧
    (∀ reading s', s.step (.publish reading) = some s' →
      ((s'.subscription i).dropped ≠ (s.subscription i).dropped →
        queued.length = maxsize i) ∧
      (i ∈ s.broadcaster.subscriptions → queued.length < maxsize i →
        (s'.subscription i).queue.items = queued ++ [reading] ∧
        (s'.subscription i).dropped = (s.subscription i).dropped)) ∧
    ∀ maxsize' events' s', (State.init maxsize').run events' = some s' →
      maxsize' i = maxsize i → ownEvents i events' = ownEvents i events →
      s'.taken i = s.taken i ∧ s'.subscription i = s.subscription i := by
  have hread := run_reader hrun i
  have hmax := run_maxsize hrun i
  rw [reader_init] at hread
  have haccount := Reader.run_account (Reader.account_init (maxsize i)) hread
  refine ⟨haccount.kept, haccount.counted, ?_, ?_, ?_⟩
  · rw [← hmax] at hpos ⊢
    exact (s.subscription i).queue.bounded hpos
  · intro reading s' hs
    have hstep := step_own hs (i := i) rfl
    have hpub := Reader.step_publish hstep
    rw [← hmax]
    exact ⟨hpub.1, fun hi => hpub.2 (decide_eq_true hi)⟩
  · intro maxsize' events' s' hrun' hsize hown
    have hread' := run_reader hrun' i
    rw [reader_init, hsize, hown] at hread'
    -- the same events of its own, from the same start: the same reader
    have hsame := Option.some.inj (hread'.symm.trans hread)
    have hqueue := congrArg Reader.queue hsame
    have hdropped := congrArg Reader.dropped hsame
    refine ⟨congrArg Reader.taken hsame, ?_⟩
    exact congrArg₂ Subscription.mk hqueue hdropped

/-- Two subscriptions of size one, of which `true` falls behind. -/
def slowRun : List (Event Bool Nat) :=
  [.enter true, .publish 1, .enter false, .publish 2, .next false, .publish 3, .next true,
    .exit false, .publish 4]

/-- The slow subscriber loses two readings and keeps the order of the others. -/
theorem fan_out_conserves_slow :
    ∃ s : State Bool Nat, (State.init fun _ => 1).run slowRun = some s ∧
      (s.taken true ++ (s.subscription true).queue.items).Sublist [1, 2, 3, 4] ∧
      (s.taken true ++ (s.subscription true).queue.items).length +
        (s.subscription true).dropped = 4 ∧
      s.taken true = [1] ∧ (s.subscription true).dropped = 2 := by
  have hrun : ∃ s : State Bool Nat, (State.init fun _ => 1).run slowRun = some s ∧
      s.taken true = [1] ∧ (s.subscription true).dropped = 2 := ⟨_, rfl, by decide⟩
  obtain ⟨s, hs, hrest⟩ := hrun
  obtain ⟨hkept, hcounted, _⟩ := fan_out_conserves hs (i := true) (Nat.le_refl 1)
  exact ⟨s, hs, hkept, hcounted, hrest⟩

end Broadcast
