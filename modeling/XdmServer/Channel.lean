import XdmServer.Transition

/-! # Bounded queues and the account of a lossy reader

    A `Queue` is a first-in first-out buffer with a bound; what is offered to a full
    one is turned away.  A `Reader` takes from such a queue, may join and leave, and
    is offered what is published while it has joined.

    `Account` is what such a reader can rely on: of all it was offered, in this
    order, it has been given or still finds in its queue everything but the counted
    number that was turned away.  `run_account` carries it along every run. -/

namespace Channel

variable {R : Type}

/-- A first-in first-out buffer of at most `maxsize` items; a `maxsize` of zero is no
    bound. -/
structure Queue (R : Type) where
  maxsize : Nat
  items : List R
  bounded : 0 < maxsize → items.length ≤ maxsize

namespace Queue

/-- A queue that nothing was put in. -/
def empty (maxsize : Nat) : Queue R where
  maxsize := maxsize
  items := []
  bounded _ := Nat.zero_le _

/-- No further item fits. -/
def Full (q : Queue R) : Prop := 0 < q.maxsize ∧ q.maxsize ≤ q.items.length

instance (q : Queue R) : Decidable q.Full := inferInstanceAs (Decidable (_ ∧ _))

/-- The queue with one more item at its end. -/
def append (q : Queue R) (r : R) (h : ¬ q.Full) : Queue R where
  maxsize := q.maxsize
  items := q.items ++ [r]
  bounded hpos := by
    have hroom : ¬ q.maxsize ≤ q.items.length := fun hle => h ⟨hpos, hle⟩
    simp only [List.length_append, List.length_singleton]
    omega

/-- Put without waiting; `none` at a full queue. -/
def putNowait (q : Queue R) (r : R) : Option (Queue R) :=
  if h : q.Full then none else some (q.append r h)

/-- The queue without its first item. -/
def tail (q : Queue R) : Queue R where
  maxsize := q.maxsize
  items := q.items.tail
  bounded hpos := by
    have hle := q.bounded hpos
    simp only [List.length_tail]
    omega

/-- Take the first item without waiting; `none` at an empty queue. -/
def getNowait (q : Queue R) : Option (R × Queue R) :=
  q.items.head?.map fun r => (r, q.tail)

@[simp] theorem empty_items (maxsize : Nat) : (empty maxsize : Queue R).items = [] := rfl

@[simp] theorem empty_maxsize (maxsize : Nat) :
    (empty maxsize : Queue R).maxsize = maxsize := rfl

/-- A queue that is full holds exactly as much as it may. -/
theorem Full.length_eq {q : Queue R} (h : q.Full) : q.items.length = q.maxsize :=
  Nat.le_antisymm (q.bounded h.1) h.2

/-- **What `putNowait` does**: turn away at a full queue, else append. -/
theorem putNowait_cases (q : Queue R) (r : R) :
    (q.Full ∧ q.putNowait r = none) ∨
    (¬ q.Full ∧ ∃ q', q.putNowait r = some q' ∧ q'.items = q.items ++ [r] ∧
      q'.maxsize = q.maxsize) := by
  by_cases h : q.Full
  · exact .inl ⟨h, dif_pos h⟩
  · exact .inr ⟨h, q.append r h, dif_neg h, rfl, rfl⟩

/-- **What `getNowait` does**: the first item goes, the others stay in their order. -/
theorem getNowait_eq_some {q q' : Queue R} {r : R} (h : q.getNowait = some (r, q')) :
    q.items = r :: q'.items ∧ q'.maxsize = q.maxsize := by
  obtain ⟨r', hr, heq⟩ := Option.map_eq_some_iff.mp h
  obtain ⟨rfl, rfl⟩ := Prod.mk.inj heq
  exact ⟨List.eq_cons_of_mem_head? hr, rfl⟩

end Queue

/-! ## One reader -/

/-- A queue with a count of what it turned away, and what was taken from it. -/
structure Reader (R : Type) where
  registered : Bool
  queue : Queue R
  dropped : Nat
  taken : List R

/-- What can happen to a reader. -/
inductive Event (R : Type) where
  | publish (r : R)
  | join
  | leave
  | take
  deriving DecidableEq

namespace Event

/-- Whether the reader has joined after the event. -/
def registered : Event R → Bool → Bool
  | .join, _ => true
  | .leave, _ => false
  | _, b => b

/-- What the event offers a reader. -/
def offered : Event R → Bool → List R
  | .publish r, true => [r]
  | _, _ => []

end Event

/-- The readings published while the reader has joined. -/
def heard : Bool → List (Event R) → List R
  | _, [] => []
  | b, e :: es => e.offered b ++ heard (e.registered b) es

namespace Reader

/-- Somebody who has just been given a queue. -/
def init (maxsize : Nat) : Reader R := ⟨false, .empty maxsize, 0, []⟩

/-- Put the item into the queue, or count it. -/
def offer (x : Reader R) (r : R) : Reader R :=
  match x.queue.putNowait r with
  | some q => { x with queue := q }
  | none => { x with dropped := x.dropped + 1 }

/-- One event; taking from an empty queue is not possible. -/
def step (x : Reader R) : Event R → Option (Reader R)
  | .publish r => some (if x.registered then x.offer r else x)
  | .join => some { x with registered := true }
  | .leave => some { x with registered := false }
  | .take => x.queue.getNowait.map fun (r, q) => { x with queue := q, taken := x.taken ++ [r] }

/-- A run of one reader. -/
def run (x : Reader R) (es : List (Event R)) : Option (Reader R) := Transition.run step x es

/-- **What an offer does**: it fits or it is counted. -/
theorem offer_cases (x : Reader R) (r : R) :
    (x.queue.Full ∧ x.offer r = { x with dropped := x.dropped + 1 }) ∨
    (¬ x.queue.Full ∧ ∃ q, x.offer r = { x with queue := q } ∧
      q.items = x.queue.items ++ [r] ∧ q.maxsize = x.queue.maxsize) := by
  obtain ⟨hfull, hput⟩ | ⟨hroom, q, hput, hitems, hmax⟩ := x.queue.putNowait_cases r
  · exact .inl ⟨hfull, by simp only [offer, hput]⟩
  · exact .inr ⟨hroom, q, by simp only [offer, hput], hitems, hmax⟩

/-- **The account of a reader** that was offered `h`. -/
structure Account (h : List R) (x : Reader R) : Prop where
  /-- Taken and queued, it is a part of what was offered, in the same order. -/
  kept : (x.taken ++ x.queue.items).Sublist h
  /-- What is missing has been counted. -/
  counted : (x.taken ++ x.queue.items).length + x.dropped = h.length

theorem account_init (maxsize : Nat) : Account [] (init maxsize : Reader R) where
  kept := .refl _
  counted := rfl

theorem Account.offer {h : List R} {x : Reader R} (ha : Account h x) (r : R) :
    Account (h ++ [r]) (x.offer r) := by
  obtain ⟨_, hx⟩ | ⟨_, q, hx, hitems, _⟩ := x.offer_cases r
  · rw [hx]
    constructor
    · exact ha.kept.trans (List.sublist_append_left h [r])
    · have hcount := ha.counted
      simp only [List.length_append, List.length_singleton] at hcount ⊢
      omega
  · rw [hx]
    constructor
    · rw [hitems, ← List.append_assoc]
      exact ha.kept.append (.refl [r])
    · have hcount := ha.counted
      simp only [hitems, List.length_append, List.length_singleton] at hcount ⊢
      omega

/-- Taking moves an item from the queue to those taken and loses none. -/
theorem Account.take {h : List R} {x : Reader R} (ha : Account h x) {r : R} {q : Queue R}
    (hq : x.queue.getNowait = some (r, q)) :
    Account h { x with queue := q, taken := x.taken ++ [r] } := by
  have hsame : x.taken ++ [r] ++ q.items = x.taken ++ x.queue.items := by
    rw [(Queue.getNowait_eq_some hq).1, List.append_assoc, List.singleton_append]
  constructor
  · rw [hsame]
    exact ha.kept
  · rw [hsame]
    exact ha.counted

/-- **One event keeps the account**. -/
theorem step_account {h : List R} {x y : Reader R} {e : Event R} (ha : Account h x)
    (hs : x.step e = some y) : Account (h ++ e.offered x.registered) y := by
  cases e with
  | publish r =>
      obtain rfl := Option.some.inj hs
      cases hreg : x.registered with
      | true =>
          rw [if_pos rfl]
          exact ha.offer r
      | false =>
          rw [if_neg Bool.false_ne_true]
          simpa only [Event.offered, List.append_nil] using ha
  | join =>
      obtain rfl := Option.some.inj hs
      simp only [Event.offered, List.append_nil]
      exact ⟨ha.kept, ha.counted⟩
  | leave =>
      obtain rfl := Option.some.inj hs
      simp only [Event.offered, List.append_nil]
      exact ⟨ha.kept, ha.counted⟩
  | take =>
      obtain ⟨⟨r, q⟩, hq, rfl⟩ := Option.map_eq_some_iff.mp hs
      simp only [Event.offered, List.append_nil]
      exact ha.take hq

/-- Whether a reader has joined, and the size of its queue, after an event. -/
theorem step_registered {x y : Reader R} {e : Event R} (hs : x.step e = some y) :
    y.registered = e.registered x.registered ∧ y.queue.maxsize = x.queue.maxsize := by
  cases e with
  | publish r =>
      obtain rfl := Option.some.inj hs
      split
      · obtain ⟨_, hx⟩ | ⟨_, q, hx, _, hmax⟩ := x.offer_cases r
        · rw [hx]
          exact ⟨rfl, rfl⟩
        · rw [hx]
          exact ⟨rfl, hmax⟩
      · exact ⟨rfl, rfl⟩
  | join =>
      obtain rfl := Option.some.inj hs
      exact ⟨rfl, rfl⟩
  | leave =>
      obtain rfl := Option.some.inj hs
      exact ⟨rfl, rfl⟩
  | take =>
      obtain ⟨⟨r, q⟩, hq, rfl⟩ := Option.map_eq_some_iff.mp hs
      exact ⟨rfl, (Queue.getNowait_eq_some hq).2⟩

/-- **A whole run keeps the account**: by induction on the events, what the remaining
    ones offer being appended to what was offered before. -/
theorem run_account {h : List R} {x y : Reader R} {es : List (Event R)} (ha : Account h x)
    (hrun : x.run es = some y) : Account (h ++ heard x.registered es) y := by
  induction es generalizing h x with
  | nil =>
      obtain rfl := Option.some.inj hrun
      simpa only [heard, List.append_nil] using ha
  | cons e es ih =>
      obtain ⟨z, hz, hrest⟩ := Option.bind_eq_some_iff.mp hrun
      have hgoal := ih (step_account ha hz) hrest
      rw [(step_registered hz).1, List.append_assoc] at hgoal
      exact hgoal

theorem run_maxsize {x y : Reader R} {es : List (Event R)} (hrun : x.run es = some y) :
    y.queue.maxsize = x.queue.maxsize := by
  induction es generalizing x with
  | nil =>
      obtain rfl := Option.some.inj hrun
      rfl
  | cons e es ih =>
      obtain ⟨z, hz, hrest⟩ := Option.bind_eq_some_iff.mp hrun
      exact (ih hrest).trans (step_registered hz).2

/-- A publication is counted as dropped only at a queue that holds all it may, and
    with room left it is appended. -/
theorem step_publish {x y : Reader R} {r : R} (hs : x.step (.publish r) = some y) :
    (y.dropped ≠ x.dropped → x.queue.items.length = x.queue.maxsize) ∧
    (x.registered = true → x.queue.items.length < x.queue.maxsize →
      y.queue.items = x.queue.items ++ [r] ∧ y.dropped = x.dropped) := by
  obtain rfl := Option.some.inj hs
  by_cases hreg : x.registered = true
  · rw [if_pos hreg]
    obtain ⟨hfull, hx⟩ | ⟨_, q, hx, hitems, _⟩ := x.offer_cases r
    · rw [hx]
      refine ⟨fun _ => hfull.length_eq, fun _ hlt => absurd hfull.length_eq (by omega)⟩
    · rw [hx]
      exact ⟨fun hne => absurd rfl hne, fun _ _ => ⟨hitems, rfl⟩⟩
  · rw [if_neg hreg]
    exact ⟨fun hne => absurd rfl hne, fun h => absurd h hreg⟩

end Reader

end Channel
