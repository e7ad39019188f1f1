import XdmServer.Clients
import XdmServer.Sessions

/-! # What a client's share of the order accounts for

    A session sees of the order of all transactions its own turns only.  `Accounted` says
    that they are the commands of the lines that the client has sent, each once and in its
    place, and that what it was sent are the answers to them.

    `accounts` is the protocol that the tasks follow: a task invokes an operation only
    where its share is accounted for whatever comes of it.  `wp_handleClient` is the proof
    that a session obeys it, and ends with `Complete` accounts. -/

namespace Accounts

open PyText Coroutine Commands Device Interleaving Scpi Sessions Clients

/-! ## Accounts -/

/-- The line a turn is the last word on: its own transaction, or what kept it from one. -/
def final : Turn → Option Nat
  | .refused line => some line
  | .ran line greeting _ _ success _ => if greeting && success then none else some line

/-- The answer a turn gives to the client. -/
def answer : Turn → Option Str
  | .ran _ false _ _ true reply => reply
  | _ => none

/-- The call that a client's line asks for; lines are counted from one. -/
def callAt (lines : List ClientLine) : Nat → Option Call
  | 0 => none
  | n + 1 => (lines[n]?).bind fun line => callOf line.body

/-- The numbers of the first `n` lines that ask for a call. -/
def numbers (lines : List ClientLine) : Nat → List Nat
  | 0 => []
  | n + 1 => numbers lines n ++ if (callAt lines (n + 1)).isSome then [n + 1] else []

/-- A transaction of a line's own runs the command of this line. -/
def Fits (lines : List ClientLine) : Turn → Prop
  | .ran line false command expects _ _ =>
      ∃ c, callAt lines line = some c ∧ c.command = command ∧ c.expects = expects
  | _ => True

/-- A client's share: how far it has read, what it was sent, and what it sees of the order. -/
structure Share where
  read : Nat
  sent : List Bytes
  turns : List Turn

/-- Each line but the one in progress has had its turn, in its place and once; and what was
    sent are the answers, but for one that is about to be sent. -/
structure Accounted (lines : List ClientLine) (v : Share) : Prop where
  counted : ∃ n, (n = v.read ∨ n + 1 = v.read) ∧ v.turns.filterMap final = numbers lines n
  fits : ∀ turn ∈ v.turns, Fits lines turn
  sent : ∃ pending, pending.length ≤ 1 ∧
    (v.sent ++ pending).map some = (v.turns.filterMap answer).map replyBytes

/-- All lines have had their turn, and all answers were sent. -/
structure Complete (lines : List ClientLine) (v : Share) : Prop where
  counted : v.turns.filterMap final = numbers lines lines.length
  sent : v.sent.map some = (v.turns.filterMap answer).map replyBytes

variable (timeout : Rat)

/-! ## The protocol -/

/-- Where a task stands: not started, or without the lock, or holding it. -/
inductive Stand where
  | idle
  | outside
  | holding

/-- What a task knows: where it stands, whether it has opened a connection that is not
    greeted yet, the lines it serves if it is a client, and its share. -/
structure Own where
  stand : Stand
  fresh : Bool
  lines : Option (List ClientLine)
  share : Share

/-- One turn more. -/
def Share.push (v : Share) (turn : Turn) : Share := { v with turns := v.turns ++ [turn] }

/-- The share of a client is accounted for. -/
def Fair (lines : Option (List ClientLine)) (v : Share) : Prop :=
  ∀ ls, lines = some ls → Accounted ls v

/-- The result of a transaction, and the turn it is. -/
def Told (h : Own) (command : Str) (expects : Bool) (r : Except Exc (Option Str)) (turn : Turn) :
    Prop :=
  (∃ reply, reply.isSome = expects ∧ r = .ok reply ∧
    turn = .ran h.share.read h.fresh command expects true reply ∧
    (h.lines.isSome = true → h.fresh = false → ∀ a, reply = some a → isAscii a = true)) ∨
  ∃ e, r = .error (.transportError e) ∧
    turn = .ran h.share.read h.fresh command expects false none

/-- What the outcome of an operation tells a task. -/
def told (h : Own) : (o : Wire.Op) → Except Exc (Wire.Res o) → Own → Prop
  | .inl .acquire, r, g => r = .ok () ∧ g = { h with stand := .holding }
  | .inl .release, r, g => r = .ok () ∧ g = { h with stand := .outside }
  | .inl .isOpen, r, g => (∃ b, r = .ok b) ∧ g = h
  | .inl .open_, r, g => r = .ok () ∧ g = { h with fresh := true } ∨
      (∃ e, r = .error (.transportError e)) ∧
        g = { h with share := h.share.push (.refused h.share.read) }
  | .inl .close, r, g => (r = .ok () ∨ ∃ e, r = .error (.transportError e)) ∧ g = h
  | .inl (.transact command expects _), r, g => ∃ turn, Told h command expects r turn ∧
      g = { h with fresh := false, share := h.share.push turn }
  | .inr .readline, r, g =>
      r = .ok () ∧ g = { h with share := { h.share with read := h.share.read + 1 } }
  | .inr (.write data), r, g =>
      r = .ok () ∧ g = { h with share := { h.share with sent := h.share.sent ++ [data] } }
  | .inr _, r, g => r = .ok () ∧ g = h

/-- Where a task may use an operation: the transport under the lock only, and the lock is
    not given back before the connection is greeted. -/
def allowed (g : Own) : Wire.Op → Prop
  | .inl .acquire => g.stand = .outside
  | .inl .release => g.stand = .holding ∧ g.fresh = false
  | .inl .open_ => g.stand = .holding ∧ g.fresh = false
  | .inl _ => g.stand = .holding
  | .inr _ => g.stand = .outside

/-- A task invokes what it may, and only where it is accounted for whatever comes. -/
def accounts : Protocol Wire Exc where
  Ghost := Own
  -- the operation under way, and what its task knows
  Held := Own × Wire.Op
  invoke g o h := h = (g, o) ∧ allowed g o ∧ ∀ r g', told g o r g' → Fair g'.lines g'.share
  answer h := told h.1

/-! ## A call of the manager -/

section Call

variable {lines : Option (List ClientLine)} {v : Share}

/-- The share once a connection was opened and greeted. -/
def greeted (v : Share) : Share := v.push (.ran v.read true LOCAL false true none)

/-- The turns that end a call without a result. -/
def Lost (v : Share) (c : Call) (turn : Turn) : Prop :=
  turn = .refused v.read ∨ turn = .ran v.read true LOCAL false false none ∨
    turn = .ran v.read false c.command c.expects false none

/-- A call may be made: the task is accounted for at each of its turns. -/
structure Ready (lines : Option (List ClientLine)) (v : Share) (c : Call) : Prop where
  begins : Fair lines v
  greets : Fair lines (greeted v)
  loses : ∀ v', v' = v ∨ v' = greeted v → ∀ turn, Lost v c turn → Fair lines (v'.push turn)
  returns : ∀ v', v' = v ∨ v' = greeted v → ∀ reply,
    (lines.isSome = true → ∀ a, reply = some a → isAscii a = true) →
    reply.isSome = c.expects →
    Fair lines (v'.push (.ran v.read false c.command c.expects true reply))

theorem wp_transact {fresh : Bool} (command : Str) (expects : Bool) (limit : Rat)
    (hfair : ∀ r turn, Told ⟨.holding, fresh, lines, v⟩ command expects r turn →
      Fair lines (v.push turn)) :
    accounts.left.wp ((lineManager timeout).transport.transact command expects limit)
      (fun r g => ∃ turn, Told ⟨.holding, fresh, lines, v⟩ command expects r turn ∧
        g = ⟨.holding, false, lines, v.push turn⟩) ⟨.holding, fresh, lines, v⟩ := by
  refine (Protocol.wp_op ..).mpr ⟨_, ⟨rfl, rfl, ?_⟩, fun r g h => h⟩
  rintro r g ⟨turn, htold, rfl⟩
  exact hfair r turn htold

theorem wp_cleanup {α : Type} (e : Exc) (hfair : Fair lines v) :
    accounts.left.wp (do
      (lineManager timeout).safeClose
      .raise e : Coro Line Exc α)
      (fun r g => r = .error e ∧ g = ⟨.holding, false, lines, v⟩) ⟨.holding, false, lines, v⟩ := by
  have hclose : accounts.left.wp (lineManager timeout).safeClose
      (fun r g => r = .ok () ∧ g = ⟨.holding, false, lines, v⟩) ⟨.holding, false, lines, v⟩ := by
    refine (Protocol.wp_tryExcept ..).mpr ((Protocol.wp_op ..).mpr ⟨_, ⟨rfl, rfl, ?_⟩, ?_⟩)
    · rintro r g ⟨-, rfl⟩
      exact hfair
    · rintro r g ⟨rfl | ⟨exc, rfl⟩, rfl⟩ <;> exact ⟨rfl, rfl⟩
  refine (Protocol.wp_bind ..).mpr (Protocol.wp_mono hclose ?_)
  rintro r g ⟨rfl, rfl⟩
  exact ⟨rfl, rfl⟩

/-- `_reconnect` greets the connection it opens, or says what it failed at. -/
theorem wp_reconnect {c : Call} (h : Ready lines v c) :
    accounts.left.wp (lineManager timeout).reconnect (fun r g =>
      r = .ok () ∧ g = ⟨.holding, false, lines, greeted v⟩ ∨
      ∃ e turn, r = .error (.deviceError e) ∧ Lost v c turn ∧
        g = ⟨.holding, false, lines, v.push turn⟩) ⟨.holding, false, lines, v⟩ := by
  have hrefused : Fair lines (v.push (.refused v.read)) := h.loses v (.inl rfl) _ (.inl rfl)
  have hlost : Fair lines (v.push (.ran v.read true LOCAL false false none)) :=
    h.loses v (.inl rfl) _ (.inr (.inl rfl))
  -- a LOCAL asks for no reply, so what comes back with its success is none
  have hlocal : ∀ r turn, Told ⟨.holding, true, lines, v⟩ LOCAL false r turn →
      Fair lines (v.push turn) := by
    rintro r turn (⟨reply, hreply, -, rfl, -⟩ | ⟨e, -, rfl⟩)
    · obtain rfl : reply = none := Option.not_isSome_iff_eq_none.mp (by rw [hreply]; decide)
      exact h.greets
    · exact hlost
  have hconnect : accounts.left.wp (lineManager timeout).connect (fun r g =>
      r = .ok () ∧ g = ⟨.holding, false, lines, greeted v⟩ ∨
      ∃ e turn, r = .error (.transportError e) ∧ Lost v c turn ∧ Fair lines (v.push turn) ∧
        g = ⟨.holding, false, lines, v.push turn⟩) ⟨.holding, false, lines, v⟩ := by
    refine (Protocol.wp_bind ..).mpr ((Protocol.wp_op ..).mpr ⟨_, ⟨rfl, ⟨rfl, rfl⟩, ?_⟩, ?_⟩)
    · rintro r g (⟨-, rfl⟩ | ⟨-, rfl⟩)
      · exact h.begins
      · exact hrefused
    · rintro r g (⟨rfl, rfl⟩ | ⟨⟨e, rfl⟩, rfl⟩)
      · refine (Protocol.wp_bind ..).mpr
          (Protocol.wp_mono (wp_transact timeout LOCAL false _ hlocal) ?_)
        rintro r g ⟨turn, ⟨reply, hreply, rfl, rfl, -⟩ | ⟨e, rfl, rfl⟩, rfl⟩
        · obtain rfl : reply = none := Option.not_isSome_iff_eq_none.mp (by rw [hreply]; decide)
          exact .inl ⟨rfl, rfl⟩
        · exact .inr ⟨e, _, rfl, .inr (.inl rfl), hlost, rfl⟩
      · exact .inr ⟨e, _, rfl, .inl rfl, hrefused, rfl⟩
  -- `except TransportError`: the half-open connection is closed before DeviceError leaves
  refine (Protocol.wp_tryExcept ..).mpr (Protocol.wp_mono hconnect ?_)
  rintro r g (⟨rfl, rfl⟩ | ⟨e, turn, rfl, hturn, hfair, rfl⟩)
  · exact .inl ⟨rfl, rfl⟩
  · refine Protocol.wp_mono (wp_cleanup timeout _ hfair) ?_
    rintro r g ⟨rfl, rfl⟩
    exact .inr ⟨_, turn, rfl, hturn, rfl⟩

/-- What a call comes to: its own transaction returned, or one of its turns was lost. -/
def Called (stand : Stand) (lines : Option (List ClientLine)) (v : Share) (c : Call)
    (r : Except Exc (Option Str)) (g : Own) : Prop :=
  ∃ v', (v' = v ∨ v' = greeted v) ∧
    ((∃ reply, r = .ok reply ∧ reply.isSome = c.expects ∧
      (lines.isSome = true → ∀ a, reply = some a → isAscii a = true) ∧
      g = ⟨stand, false, lines, v'.push (.ran v.read false c.command c.expects true reply)⟩) ∨
    ∃ e turn, r = .error (.deviceError e) ∧ Lost v c turn ∧
      g = ⟨stand, false, lines, v'.push turn⟩)

/-- A call leaves its task accounted for. -/
theorem Called.fair {stand : Stand} {c : Call} {r : Except Exc (Option Str)} {g : Own}
    (h : Ready lines v c) (hg : Called stand lines v c r g) : Fair g.lines g.share := by
  obtain ⟨v', hv', ⟨reply, -, hreply, hascii, rfl⟩ | ⟨e, turn, -, hturn, rfl⟩⟩ := hg
  · exact h.returns v' hv' reply hascii hreply
  · exact h.loses v' hv' turn hturn

/-- **The `try` of `_transact`**. -/
theorem wp_attempt {c : Call} (h : Ready lines v c) {v' : Share}
    (hv' : v' = v ∨ v' = greeted v) (limit : Rat) :
    accounts.left.wp ((lineManager timeout).attempt c.command c.expects limit)
      (Called .holding lines v c) ⟨.holding, false, lines, v'⟩ := by
  have hread : v'.read = v.read := by obtain rfl | rfl := hv' <;> rfl
  have hlost : Fair lines (v'.push (.ran v.read false c.command c.expects false none)) :=
    h.loses v' hv' _ (.inr (.inr rfl))
  -- a reply is accounted for at once, a failure after the cleanup
  refine (Protocol.wp_tryExcept ..).mpr
    (Protocol.wp_mono (wp_transact timeout c.command c.expects limit ?_) ?_)
  · rintro r turn (⟨reply, hreply, -, rfl, hascii⟩ | ⟨e, -, rfl⟩)
    · rw [hread]
      exact h.returns v' hv' reply (fun hl => hascii hl rfl) hreply
    · rw [hread]
      exact hlost
  · rintro r g ⟨turn, ⟨reply, hreply, rfl, rfl, hascii⟩ | ⟨e, rfl, rfl⟩, rfl⟩
    · rw [hread]
      exact ⟨v', hv', .inl ⟨reply, rfl, hreply, fun hl => hascii hl rfl, rfl⟩⟩
    · rw [hread]
      refine Protocol.wp_mono (wp_cleanup timeout _ hlost) ?_
      rintro r g ⟨rfl, rfl⟩
      exact ⟨v', hv', .inr ⟨_, _, rfl, .inr (.inr rfl), rfl⟩⟩

/-- **Under the lock**: the reconnect if there is need of one, then the command. -/
theorem wp_exchange {c : Call} (h : Ready lines v c) (limit : Rat) :
    accounts.left.wp ((lineManager timeout).exchange c.command c.expects limit)
      (Called .holding lines v c) ⟨.holding, false, lines, v⟩ := by
  have hensure : accounts.left.wp (lineManager timeout).ensureOpen (fun r g =>
      (∃ v', (v' = v ∨ v' = greeted v) ∧ r = .ok () ∧ g = ⟨.holding, false, lines, v'⟩) ∨
      ∃ e turn, r = .error (.deviceError e) ∧ Lost v c turn ∧
        g = ⟨.holding, false, lines, v.push turn⟩) ⟨.holding, false, lines, v⟩ := by
    refine (Protocol.wp_bind ..).mpr ((Protocol.wp_op ..).mpr ⟨_, ⟨rfl, rfl, ?_⟩, ?_⟩)
    · rintro r g ⟨-, rfl⟩
      exact h.begins
    · rintro r g ⟨⟨isOpen, rfl⟩, rfl⟩
      cases isOpen with
      | true => exact .inl ⟨v, .inl rfl, rfl, rfl⟩
      | false =>
          refine Protocol.wp_mono (wp_reconnect timeout h) ?_
          rintro r g (⟨rfl, rfl⟩ | hlost)
          · exact .inl ⟨greeted v, .inr rfl, rfl, rfl⟩
          · exact .inr hlost
  -- the command goes out only if the connection could be had
  refine (Protocol.wp_bind ..).mpr (Protocol.wp_mono hensure ?_)
  rintro r g (⟨v', hv', rfl, rfl⟩ | ⟨e, turn, rfl, hturn, rfl⟩)
  · exact wp_attempt timeout h hv' limit
  · exact ⟨v, .inl rfl, .inr ⟨e, turn, rfl, hturn, rfl⟩⟩

/-- **A whole `_transact`**: the lock is taken, and given back. -/
theorem wp_managerTransact {c : Call} (h : Ready lines v c) :
    accounts.left.wp ((lineManager timeout).transact c.command c.expects c.timeout)
      (Called .outside lines v c) ⟨.outside, false, lines, v⟩ := by
  refine (Protocol.wp_bind ..).mpr ((Protocol.wp_op ..).mpr ⟨_, ⟨rfl, rfl, ?_⟩, ?_⟩)
  · rintro r g ⟨-, rfl⟩
    exact h.begins
  · rintro r g ⟨rfl, rfl⟩
    -- the lock is given back whatever the body came to, and the turn is on record by then
    refine (Protocol.wp_tryFinally ..).mpr (Protocol.wp_mono (wp_exchange timeout h _) ?_)
    intro r g hg
    have hfair := hg.fair h
    obtain ⟨v', hv', hg⟩ := hg
    have hlock : g.stand = .holding ∧ g.fresh = false ∧
        Called .outside lines v c r { g with stand := .outside } := by
      obtain ⟨reply, rfl, hreply, hascii, rfl⟩ | ⟨e, turn, rfl, hturn, rfl⟩ := hg
      · exact ⟨rfl, rfl, v', hv', .inl ⟨reply, rfl, hreply, hascii, rfl⟩⟩
      · exact ⟨rfl, rfl, v', hv', .inr ⟨e, turn, rfl, hturn, rfl⟩⟩
    obtain ⟨hstand, hfresh, hcalled⟩ := hlock
    refine (Protocol.wp_op ..).mpr ⟨_, ⟨rfl, ⟨hstand, hfresh⟩, ?_⟩, ?_⟩
    · rintro r' g' ⟨-, rfl⟩
      exact hfair
    · rintro r' g' ⟨rfl, rfl⟩
      exact hcalled

/-- **A call of the manager** is accounted for at every turn. -/
theorem wp_perform {c : Call} (h : Ready lines v c) :
    accounts.left.wp ((lineManager timeout).perform c) (fun r g => ∃ x,
      Called .outside lines v c x g ∧ match x with
        | .ok reply => r = c.value reply
        | .error e => r = .error e) ⟨.outside, false, lines, v⟩ := by
  rw [DeviceManager.perform_eq]
  refine (Protocol.wp_andThen ..).mpr (Protocol.wp_mono (wp_managerTransact timeout h) ?_)
  intro x g hg
  cases x with
  | ok reply => exact (Protocol.wp_ofExcept ..).mpr ⟨.ok reply, hg, rfl⟩
  | error e => exact ⟨.error e, hg, rfl⟩

end Call

/-! ## A client's session -/

/-- The lines up to `n` have had their turn, and all answers to them were sent. -/
structure Upto (ls : List ClientLine) (n : Nat) (v : Share) : Prop where
  counted : v.turns.filterMap final = numbers ls n
  fits : ∀ turn ∈ v.turns, Fits ls turn
  sent : v.sent.map some = (v.turns.filterMap answer).map replyBytes

/-- What a last word on line `n + 1` adds to a share that is settled up to `n`. -/
structure Next (ls : List ClientLine) (n : Nat) (v : Share) (a : Option Str) (turn : Turn) :
    Prop where
  upto : Upto ls n v
  final : final turn = some (n + 1)
  answer : answer turn = a
  fits : Fits ls turn
  asks : (callAt ls (n + 1)).isSome = true

theorem Upto.accounted {ls : List ClientLine} {n : Nat} {v : Share} (h : Upto ls n v)
    (hn : n = v.read ∨ n + 1 = v.read) : Accounted ls v :=
  ⟨⟨n, hn, h.counted⟩, h.fits, [], Nat.zero_le 1, by rw [List.append_nil]; exact h.sent⟩

theorem Upto.fair {ls : List ClientLine} {n : Nat} {v : Share} (h : Upto ls n v)
    (hn : n = v.read ∨ n + 1 = v.read) : Fair (some ls) v := by
  rintro _ ⟨⟩
  exact h.accounted hn

/-- A greeting is no line's turn, and answers nothing. -/
theorem Upto.greeted {ls : List ClientLine} {n : Nat} {v : Share} (h : Upto ls n v) :
    Upto ls n (greeted v) := by
  refine ⟨?_, fun turn hturn => ?_, ?_⟩
  · show (v.turns ++ [_]).filterMap Accounts.final = _
    rw [List.filterMap_append, h.counted]
    exact List.append_nil _
  · obtain hturn | hturn := List.mem_append.mp hturn
    · exact h.fits turn hturn
    · obtain rfl := List.mem_singleton.mp hturn
      trivial
  · show v.sent.map some = ((v.turns ++ [_]).filterMap Accounts.answer).map replyBytes
    rw [List.filterMap_append, h.sent]
    exact congrArg (List.map replyBytes) (List.append_nil _).symm

theorem Next.counted {ls : List ClientLine} {n : Nat} {v : Share} {a : Option Str} {turn : Turn}
    (h : Next ls n v a turn) :
    (v.push turn).turns.filterMap Accounts.final = numbers ls (n + 1) := by
  show (v.turns ++ [turn]).filterMap Accounts.final = _
  rw [List.filterMap_append, h.upto.counted, numbers, if_pos h.asks, List.filterMap_cons, h.final]
  rfl

theorem Next.fits_push {ls : List ClientLine} {n : Nat} {v : Share} {a : Option Str} {turn : Turn}
    (h : Next ls n v a turn) : ∀ t ∈ (v.push turn).turns, Fits ls t := by
  intro t ht
  obtain ht | ht := List.mem_append.mp ht
  · exact h.upto.fits t ht
  · obtain rfl := List.mem_singleton.mp ht
    exact h.fits

theorem Next.answers {ls : List ClientLine} {n : Nat} {v : Share} {a : Option Str} {turn : Turn}
    (h : Next ls n v a turn) :
    (v.push turn).turns.filterMap Accounts.answer
      = v.turns.filterMap Accounts.answer ++ a.toList := by
  show (v.turns ++ [turn]).filterMap Accounts.answer = _
  rw [List.filterMap_append, List.filterMap_cons, h.answer]
  cases a <;> rfl

/-- Without an answer the line is settled. -/
theorem Next.settled {ls : List ClientLine} {n : Nat} {v : Share} {turn : Turn}
    (h : Next ls n v none turn) : Upto ls (n + 1) (v.push turn) := by
  refine ⟨h.counted, h.fits_push, ?_⟩
  rw [h.answers]
  exact h.upto.sent.trans (congrArg (List.map replyBytes) (List.append_nil _).symm)

/-- With an answer it is once the answer is sent. -/
theorem Next.answered {ls : List ClientLine} {n : Nat} {v : Share} {a : Str} {turn : Turn}
    {data : Bytes} (h : Next ls n v (some a) turn) (hdata : replyBytes a = some data) :
    Upto ls (n + 1) { v.push turn with sent := v.sent ++ [data] } := by
  refine ⟨h.counted, h.fits_push, ?_⟩
  show (v.sent ++ [data]).map some
    = ((v.push turn).turns.filterMap Accounts.answer).map replyBytes
  rw [h.answers, List.map_append, List.map_append, h.upto.sent]
  exact congrArg (_ ++ [·]) hdata.symm

/-- Either way the client is accounted for, one answer at most being due. -/
theorem Next.accounted {ls : List ClientLine} {n : Nat} {v : Share} {a : Option Str} {turn : Turn}
    (h : Next ls n v a turn) (hread : v.read = n + 1)
    (hascii : ∀ x, a = some x → isAscii x = true) : Accounted ls (v.push turn) := by
  refine ⟨⟨n + 1, .inl hread.symm, h.counted⟩, h.fits_push, ?_⟩
  cases a with
  | none => exact ⟨[], Nat.zero_le 1, by rw [List.append_nil]; exact h.settled.sent⟩
  | some x =>
      obtain ⟨data, hdata⟩ : ∃ data, replyBytes x = some data := by
        obtain ⟨b, hb⟩ := Option.isSome_iff_exists.mp (encodeAscii_isSome.trans (hascii x rfl))
        exact ⟨terminated b, congrArg (Option.map terminated) hb⟩
      exact ⟨[data], Nat.le_refl 1, (h.answered hdata).sent⟩

/-- The turns of a call of line `n + 1`. -/
theorem next_lost {ls : List ClientLine} {n : Nat} {v v' : Share} {c : Call} {turn : Turn}
    (h : Upto ls n v') (hread : v.read = n + 1) (hcall : callAt ls (n + 1) = some c)
    (hturn : Lost v c turn) : Next ls n v' none turn := by
  have hasks : (callAt ls (n + 1)).isSome = true := by
    rw [hcall]
    rfl
  obtain rfl | rfl | rfl := hturn
  · exact ⟨h, congrArg some hread, rfl, trivial, hasks⟩
  · exact ⟨h, congrArg some hread, rfl, trivial, hasks⟩
  · exact ⟨h, congrArg some hread, rfl, ⟨c, hread ▸ hcall, rfl, rfl⟩, hasks⟩

theorem next_returned {ls : List ClientLine} {n : Nat} {v v' : Share} {c : Call}
    {reply : Option Str} (h : Upto ls n v') (hread : v.read = n + 1)
    (hcall : callAt ls (n + 1) = some c) :
    Next ls n v' reply (.ran v.read false c.command c.expects true reply) := by
  have hasks : (callAt ls (n + 1)).isSome = true := by
    rw [hcall]
    rfl
  exact ⟨h, congrArg some hread, rfl, ⟨c, hread ▸ hcall, rfl, rfl⟩, hasks⟩

theorem Upto.of_mid {ls : List ClientLine} {n : Nat} {v v' : Share} (h : Upto ls n v)
    (hv' : v' = v ∨ v' = Accounts.greeted v) : Upto ls n v' ∧ v'.read = v.read := by
  obtain rfl | rfl := hv'
  · exact ⟨h, rfl⟩
  · exact ⟨h.greeted, rfl⟩

/-- A client that has read a line may make the call it asks for. -/
theorem ready_client {ls : List ClientLine} {n : Nat} {v : Share} {c : Call} (h : Upto ls n v)
    (hread : v.read = n + 1) (hcall : callAt ls (n + 1) = some c) : Ready (some ls) v c where
  begins := h.fair (.inr hread.symm)
  greets := h.greeted.fair (.inr hread.symm)
  loses v' hv' turn hturn := by
    rintro _ ⟨⟩
    obtain ⟨h', hread'⟩ := h.of_mid hv'
    exact (next_lost h' hread hcall hturn).accounted (hread'.trans hread) fun x hx => nomatch hx
  returns v' hv' reply hascii hreply := by
    rintro _ ⟨⟩
    obtain ⟨h', hread'⟩ := h.of_mid hv'
    exact (next_returned h' hread hcall).accounted (hread'.trans hread) (hascii rfl)

/-- What is left to do for line `n + 1` once its call is over: to send the answer. -/
def Due (ls : List ClientLine) (n : Nat) (v : Share) : Option Str → Prop
  | none => Upto ls (n + 1) v
  | some a => ∃ data, encodeAscii a = some data ∧
      Upto ls (n + 1) { v with sent := v.sent ++ [terminated data] }

theorem Next.due {ls : List ClientLine} {n : Nat} {v : Share} {a : Option Str} {turn : Turn}
    (h : Next ls n v a turn) (hascii : ∀ x, a = some x → isAscii x = true) :
    Due ls n (v.push turn) a := by
  cases a with
  | none => exact h.settled
  | some x =>
      obtain ⟨b, hb⟩ := Option.isSome_iff_exists.mp (encodeAscii_isSome.trans (hascii x rfl))
      exact ⟨b, hb, h.answered (congrArg (Option.map terminated) hb)⟩

/-- A line that asks for nothing is settled once it is read. -/
theorem Upto.blank {ls : List ClientLine} {n : Nat} {v : Share} (h : Upto ls n v)
    (hcall : callAt ls (n + 1) = none) : Upto ls (n + 1) v := by
  refine ⟨?_, h.fits, h.sent⟩
  rw [h.counted, numbers, hcall]
  exact (List.append_nil _).symm

/-- A program of the manager's calls, on the wire. -/
theorem translate_inl {α : Type} (p : Coro Calls Exc α) :
    (p.inl : Coro Session Exc α).translate (perform timeout)
      = (p.translate (lineManager timeout).perform).inl := by
  induction p with
  | ret a => rfl
  | raise e => rfl
  | call c k ih =>
      have hk : ((Coro.call c k).inl : Coro Session Exc α).translate (perform timeout) = _ :=
        congrArg (perform timeout (.inl c)).andThen (funext ih)
      exact hk.trans (Coro.inl_andThen ..).symm

/-- **An operation on the streams**. -/
theorem wp_socket {o : SocketOp} {Q : Except Exc Unit → Own → Prop} {g : Own}
    (hstand : g.stand = .outside)
    (h : ∀ r g', told g (.inr o) r g' → Fair g'.lines g'.share ∧ Q r g') :
    accounts.wp ((Socket.op o).translate (perform timeout)) Q g := by
  have hop : (Socket.op o).translate (perform timeout) = .op (S := Wire) (.inr o) :=
    Coro.translate_op (perform timeout) (.inr o)
  rw [hop]
  exact (Protocol.wp_op ..).mpr ⟨_, ⟨rfl, hstand, fun r g' ht => (h r g' ht).1⟩,
    fun r g' ht => (h r g' ht).2⟩

section Client

variable {ls : List ClientLine} {n : Nat} {v : Share}

/-- **A line's call** leaves its answer to be sent, or nothing. -/
theorem wp_handleCommand {raw : Bytes} (h : Upto ls n v) (hread : v.read = n + 1)
    (hcall : callAt ls (n + 1) = callOf raw) :
    accounts.left.wp ((handleCommand (decodeAscii raw)).translate (lineManager timeout).perform)
      (fun r g => ∃ reply v', r = .ok reply ∧ g = ⟨.outside, false, some ls, v'⟩ ∧
        v'.read = n + 1 ∧ Due ls n v' reply) ⟨.outside, false, some ls, v⟩ := by
  rw [handleCommand_eq]
  cases hc : callOf raw with
  | none => exact ⟨none, v, rfl, rfl, hread, h.blank (hcall.trans hc)⟩
  | some c =>
      have hcall' : callAt ls (n + 1) = some c := hcall.trans hc
      dsimp only
      rw [Coro.translate_andThen, Coro.translate_op]
      refine (Protocol.wp_andThen ..).mpr
        (Protocol.wp_mono (wp_perform timeout (ready_client h hread hcall')) ?_)
      rintro r g ⟨x, ⟨v', hv', hx⟩, hr⟩
      obtain ⟨h', hread'⟩ := h.of_mid hv'
      -- DeviceError is swallowed: a lost line is settled without an answer
      obtain ⟨reply, rfl, hreply, hascii, rfl⟩ | ⟨e, turn, rfl, hturn, rfl⟩ := hx
      · have hdue := (next_returned h' hread hcall').due (hascii rfl)
        cases c with
        | query command limit =>
            obtain ⟨a, rfl⟩ := Option.isSome_iff_exists.mp hreply
            obtain rfl : r = .ok a := hr
            exact ⟨some a, _, rfl, rfl, hread'.trans hread, hdue⟩
        | write command limit =>
            obtain rfl := Option.not_isSome_iff_eq_none.mp (ne_true_of_eq_false hreply)
            obtain rfl : r = .ok () := hr
            exact ⟨none, _, rfl, rfl, hread'.trans hread, hdue⟩
      · obtain rfl : r = .error (.deviceError e) := hr
        exact ⟨none, _, rfl, rfl, hread'.trans hread, (next_lost h' hread hcall' hturn).settled⟩

/-- **Once around the loop**: line `n + 1` is executed and answered. -/
theorem wp_handleLine {raw : Bytes} (h : Upto ls n v) (hread : v.read = n + 1)
    (hcall : callAt ls (n + 1) = callOf raw) :
    accounts.wp ((handleLine raw).translate (perform timeout)) (fun r g => r = .ok () ∧
      ∃ v', g = ⟨.outside, false, some ls, v'⟩ ∧ v'.read = n + 1 ∧ Upto ls (n + 1) v')
      ⟨.outside, false, some ls, v⟩ := by
  unfold handleLine
  dsimp only
  rw [Coro.translate_bind, translate_inl]
  refine (Protocol.wp_bind ..).mpr ((Protocol.wp_inl ..).mpr
    (Protocol.wp_mono (wp_handleCommand timeout h hread hcall) ?_))
  rintro r g ⟨reply, v', rfl, rfl, hread', hdue⟩
  cases reply with
  | none => exact ⟨rfl, v', rfl, hread', hdue⟩
  | some a =>
      obtain ⟨data, hdata, hupto⟩ := hdue
      have hfair : Fair (some ls) { v' with sent := v'.sent ++ [terminated data] } :=
        hupto.fair (.inl hread'.symm)
      dsimp only
      rw [hdata]
      dsimp only
      rw [Coro.translate_bind]
      -- the answer is written, and drained
      refine (Protocol.wp_bind ..).mpr (wp_socket timeout rfl ?_)
      rintro r g ⟨rfl, rfl⟩
      refine ⟨hfair, wp_socket timeout rfl ?_⟩
      rintro r g ⟨rfl, rfl⟩
      exact ⟨hfair, rfl, _, rfl, hread', hupto⟩

/-- A line is read. -/
theorem Upto.next (h : Upto ls n v) : Upto ls n { v with read := v.read + 1 } :=
  ⟨h.counted, h.fits, h.sent⟩

/-- **The loop** executes the lines that are left, and reads the end of the stream. -/
theorem wp_loop {before rest : List ClientLine} (hls : ls = before ++ rest)
    (h : Upto ls before.length v) (hread : v.read = before.length) :
    accounts.wp ((loop ((rest.map ClientLine.body).map terminated)).translate (perform timeout))
      (fun r g => r = .ok () ∧ ∃ v', g = ⟨.outside, false, some ls, v'⟩ ∧
        v'.read = ls.length + 1 ∧ Upto ls ls.length v') ⟨.outside, false, some ls, v⟩ := by
  -- on the lines that are left; the share is settled up to those before
  induction rest generalizing before v with
  | nil =>
      obtain rfl : ls = before := hls.trans (List.append_nil before)
      -- the end of the stream is one more `readline`, and ends the loop
      refine wp_socket timeout rfl ?_
      rintro r g ⟨rfl, rfl⟩
      have hread' : v.read + 1 = ls.length + 1 := congrArg (· + 1) hread
      exact ⟨h.next.fair (.inr hread'.symm), rfl, _, rfl, hread', h.next⟩
  | cons line rest ih =>
      have hcall : callAt ls (before.length + 1) = callOf (terminated line.body) := by
        rw [callOf_terminated, callAt, hls, List.getElem?_append_right (Nat.le_refl _),
          Nat.sub_self]
        rfl
      have hread' : v.read + 1 = before.length + 1 := congrArg (· + 1) hread
      show accounts.wp ((do
        Socket.op .readline
        handleLine (terminated line.body)
        loop ((rest.map ClientLine.body).map terminated)).translate (perform timeout)) _ _
      rw [Coro.translate_bind]
      refine (Protocol.wp_bind ..).mpr (wp_socket timeout rfl ?_)
      rintro r g ⟨rfl, rfl⟩
      refine ⟨h.next.fair (.inr hread'.symm), ?_⟩
      dsimp only
      rw [Coro.translate_bind]
      refine (Protocol.wp_bind ..).mpr
        (Protocol.wp_mono (wp_handleLine timeout h.next hread' hcall) ?_)
      rintro r g ⟨rfl, v', rfl, hv', hupto⟩
      have hlength : (before ++ [line]).length = before.length + 1 := List.length_append
      have hrest : ls = (before ++ [line]) ++ rest := by
        rw [hls, List.append_assoc]
        rfl
      exact ih hrest (hlength.symm ▸ hupto) (hv'.trans hlength.symm)

/-- **A whole session**: every line is executed and answered, and no exception leaves it. -/
theorem wp_handleClient :
    accounts.wp ((Entry.client ls).code timeout)
      (fun r g => r = .ok () ∧ ∃ v', g = ⟨.outside, false, some ls, v'⟩ ∧ Complete ls v')
      ⟨.outside, false, some ls, ⟨0, [], []⟩⟩ := by
  have hlines : readlines ((ls.map ClientLine.body).map terminated).flatten
      = (ls.map ClientLine.body).map terminated := by
    refine readlines_terminated fun body hbody => ?_
    obtain ⟨line, -, rfl⟩ := List.mem_map.mp hbody
    exact line.newline_notMem
  have hstart : Upto ls 0 ⟨0, [], []⟩ := ⟨rfl, fun turn h => (nomatch h), rfl⟩
  show accounts.wp ((handleClient _).translate (perform timeout)) _ _
  unfold handleClient hangUp
  rw [hlines, Coro.translate_tryFinally, Coro.translate_tryExcept]
  refine (Protocol.wp_tryFinally ..).mpr ((Protocol.wp_tryExcept ..).mpr
    (Protocol.wp_mono (wp_loop timeout (List.nil_append ls).symm hstart rfl) ?_))
  -- the `finally` closes the stream and awaits that it is closed
  rintro r g ⟨rfl, v', rfl, hread, hupto⟩
  have hfair : Fair (some ls) v' := hupto.fair (.inr hread.symm)
  show accounts.wp (Coro.translate _ _) _ _
  rw [Coro.translate_bind]
  refine (Protocol.wp_bind ..).mpr (wp_socket timeout rfl ?_)
  rintro r g ⟨rfl, rfl⟩
  refine ⟨hfair, ?_⟩
  dsimp only
  rw [Coro.translate_tryExcept]
  refine (Protocol.wp_tryExcept ..).mpr (wp_socket timeout rfl ?_)
  rintro r g ⟨rfl, rfl⟩
  exact ⟨hfair, rfl, v', rfl, hupto.counted, hupto.sent⟩

end Client

/-- A task that is no client has nothing to account for. -/
theorem wp_other (p : Coro Calls Exc Unit) :
    accounts.wp ((Entry.other p).code timeout) (fun _ g => g.lines = none)
      ⟨.outside, false, none, ⟨0, [], []⟩⟩ := by
  have hfair : ∀ v, Fair none v := fun v ls h => nomatch h
  have hready : ∀ v c, Ready none v c := fun v c =>
    ⟨hfair _, hfair _, fun _ _ _ _ => hfair _, fun _ _ _ _ _ => hfair _⟩
  have hcall : ∀ c, accounts.left.Maintains (fun g => ∃ v, g = ⟨.outside, false, none, v⟩)
      ((lineManager timeout).perform c) := by
    rintro c g ⟨v, rfl⟩
    refine Protocol.wp_mono (wp_perform timeout (hready v c)) ?_
    rintro r g ⟨x, ⟨v', -, ⟨reply, -, -, -, rfl⟩ | ⟨e, turn, -, -, rfl⟩⟩, -⟩ <;> exact ⟨_, rfl⟩
  show accounts.wp ((p.inl : Coro Session Exc Unit).translate (perform timeout)) _ _
  rw [translate_inl]
  refine (Protocol.wp_inl ..).mpr
    (Protocol.wp_mono (Protocol.Maintains.translate hcall p _ ⟨_, rfl⟩) ?_)
  rintro r g ⟨v, rfl⟩
  rfl

end Accounts
