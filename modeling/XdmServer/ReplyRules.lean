import XdmServer.PortScript
import XdmServer.Protocol

/-! # What a query may take for its reply

    A call on the manager over the serial transport, with every call of pyserial an
    operation of its own.

    `rules` says what a call knows of its place in the protocol of reset, write and read,
    and `wp_call` that the code keeps to it: what a query returns is the first line to
    have arrived after its own went out. -/

namespace LateReplies

open PyText Coroutine Commands Device PortScript

/-- The operations of the event loop, and those of its worker. -/
abbrev Wired : Signature := Serial.sum Port

/-- A job of the worker that is a transaction is the calls it makes; everything else is
    one operation. -/
def wired (T : SerialTransport) : (o : SerialOp) → Coro Wired Exc o.Res
  | .toThread (.transactBlocking command expectResponse timeout) =>
      (T.transactBlocking command expectResponse timeout).inr
  | o => .op (S := Wired) (.inl o)

/-- A query that can be sent. -/
def asks (c : Call) : Bool := c.expects && isAscii c.command

/-! ## What a call knows -/

/-- The line of a call. -/
def IsLineOf (c : Call) (data : Bytes) : Prop := encodeAscii (c.command ++ TERMINATOR) = some data

/-- How far a transaction has come with its own reply. -/
inductive Stage where
  | outside
  /-- It holds the lock, and has found the transport closed or not. -/
  | inside (closed : Bool)
  /-- It has reset the input for a query of its own; nothing has arrived. -/
  | clear
  /-- It has written line `n`, and what has arrived first answers it. -/
  | wrote (n : Nat)
  | got (n : Nat) (raw : Bytes)
  | done (n : Nat) (raw : Bytes)
  /-- It has released the lock with no answer. -/
  | unanswered
  deriving DecidableEq

/-- The stages with the lock. -/
def Stage.holds : Stage → Prop
  | .outside => False
  | .done _ _ => False
  | .unanswered => False
  | _ => True

/-- A call, and how far it has come. -/
@[ext] structure Ghost where
  call : Call
  stage : Stage

/-- The stage once the lock is released. -/
def Stage.closing : Stage → Stage
  | .got n raw => .done n raw
  | _ => .unanswered

/-- The stage after a look that has found the transport closed. -/
def Stage.shut : Stage → Stage
  | .inside _ => .inside true
  | stage => stage

/-- The call holds the lock. -/
def HoldsFor (c : Call) (g : Ghost) : Prop := g.call = c ∧ g.stage.holds

/-- **The event loop's half**: the greeting goes out where the transport was found closed,
    and the call's own transaction where it was not. -/
def loopRules : Protocol Serial Exc where
  Ghost := Ghost
  Held := Ghost
  invoke g o h := h = g ∧ match o with
    | .acquire => g.stage = .outside
    | .toThread (.transactBlocking command expects _) =>
        (g.stage = .inside true ∧ expects = false) ∨
        (g.stage = .inside false ∧ command = g.call.command ∧ expects = g.call.expects)
    | _ => g.stage.holds
  answer h o r g := g.call = h.call ∧ match o, r with
    | .acquire, .ok _ => g.stage = .inside false
    | .release, _ => g.stage = h.stage.closing
    | .getSerial, .ok none => g.stage = h.stage.shut
    | .handleIsOpen _, .ok false => g.stage = h.stage.shut
    | .toThread (.transactBlocking _ _ _), .ok x =>
        if h.stage = .inside true then g.stage = .inside false
        else g.stage.holds ∧ ∀ s, x = some s →
          ∃ n raw, g.stage = .got n raw ∧ s = strip (decodeAscii raw)
    | .toThread (.transactBlocking _ _ _), .error _ => g.stage.holds
    | _, _ => g.stage = h.stage

/-- The stage after a flush: a greeting is out. -/
def Stage.flushed : Stage → Stage
  | .inside _ => .inside false
  | stage => stage

/-- **The worker's half**: a query of the call's own resets the input, writes the line of
    the call, and reads. -/
def rules : Protocol Wired Exc where
  Ghost := Ghost
  Held := Ghost
  invoke g o h := match o with
    | .inl (.toThread (.transactBlocking _ _ _)) => False
    | .inl o => loopRules.invoke g o h
    | .inr o => h = g ∧ g.stage.holds ∧ match o with
      | .resetInputBuffer _ => ∃ closed, g.stage = .inside closed
      | .write _ data => (g.stage = .clear ∧ IsLineOf g.call data) ∨
          ∃ closed, g.stage = .inside closed
      | .readline _ => ∃ n, g.stage = .wrote n
      | _ => True
  answer h o r g := match o, r with
    | .inl o, r => loopRules.answer h o r g
    | .inr _, .error _ => HoldsFor h.call g
    | .inr (.resetInputBuffer _), .ok _ =>
        g = if h.stage = .inside false ∧ asks h.call = true then ⟨h.call, .clear⟩ else h
    | .inr (.write _ _), .ok _ =>
        if h.stage = .clear then ∃ n, g = ⟨h.call, .wrote n⟩ else g = h
    | .inr (.flush _), .ok _ => g = ⟨h.call, h.stage.flushed⟩
    | .inr (.readline _), .ok raw => if raw.isEmpty then HoldsFor h.call g
        else ∃ n, h.stage = .wrote n ∧ g = ⟨h.call, .got n raw⟩
    | .inr _, .ok _ => g = h

/-! ## One transaction -/

section Transaction

variable (T : SerialTransport)

theorem HoldsFor.error {α : Type} {c : Call} {g : Ghost} {e : Exc} {P : α → Prop}
    (h : HoldsFor c g) : HoldsFor c g ∧ ∀ x, (.error e : Except Exc α) = .ok x → P x := by
  refine ⟨h, ?_⟩
  intro x hx
  cases hx

theorem HoldsFor.ok {α : Type} {c : Call} {g : Ghost} {x : α} {P : α → Prop}
    (h : HoldsFor c g) (hx : P x) : HoldsFor c g ∧ ∀ y, (.ok x : Except Exc α) = .ok y → P y := by
  refine ⟨h, ?_⟩
  intro y hy
  obtain rfl := Except.ok.inj hy
  exact hx

/-- **The worker's program** around its conversation with the meter: an empty line is no
    answer, and any other is stripped. -/
theorem wp_transactBlocking {command : Str} {expects : Bool} {timeout : Rat} {g : Ghost}
    (hg : g.stage.holds) {Φ : Option Bytes → Ghost → Prop}
    (h : ∀ ser, rules.right.wp (SerialTransport.converse ser command expects timeout)
      (fun r g' => HoldsFor g.call g' ∧ ∀ x, r = .ok x → Φ x g') g) :
    rules.right.wp (T.transactBlocking command expects timeout)
      (fun r g' => HoldsFor g.call g' ∧ ∀ y, r = .ok y → (y = none ∧ Φ none g') ∨
        ∃ raw, raw ≠ [] ∧ y = some (strip (decodeAscii raw)) ∧ Φ (some raw) g') g := by
  refine (Protocol.wp_bind ..).mpr ((Protocol.wp_op ..).mpr ⟨g, ⟨rfl, hg, trivial⟩, ?_⟩)
  rintro (e | _ | ser) g' hans
  · exact HoldsFor.error hans
  · obtain rfl : g' = g := hans
    exact HoldsFor.error ⟨rfl, hg⟩
  obtain rfl : g' = g := hans
  refine (Protocol.wp_bind ..).mpr ((Protocol.wp_tryExcept ..).mpr (Protocol.wp_mono (h ser) ?_))
  rintro (e | _ | raw) g'' ⟨hholds, hΦ⟩
  · cases e <;> exact hholds.error
  · exact hholds.ok (.inl ⟨rfl, hΦ none rfl⟩)
  · show rules.right.wp (if raw.isEmpty then _ else _) _ _
    cases hraw : raw.isEmpty with
    | true => exact hholds.error
    | false => exact hholds.ok (.inr ⟨raw, by simpa using hraw, rfl, hΦ (some raw) rfl⟩)

/-- **One call of pyserial**: its exception ends the conversation. -/
theorem wp_port {α : Type} {o : PortOp} {k : o.Res → Coro Port Exc α}
    {Q : Except Exc α → Ghost → Prop} {g : Ghost} (hinv : rules.right.invoke g o g)
    (herr : ∀ e g', HoldsFor g.call g' → Q (.error e) g')
    (hok : ∀ r g', rules.right.answer g o (.ok r) g' → rules.right.wp (k r) Q g') :
    rules.right.wp (Coro.op (S := Port) o >>= k) Q g := by
  refine (Protocol.wp_bind ..).mpr ((Protocol.wp_op ..).mpr ⟨g, hinv, ?_⟩)
  rintro (e | r) g' hans
  · refine herr e g' ?_
    cases o <;> exact hans
  · exact hok r g' hans

/-- A reset is the beginning of a query's wait if the query can be sent. -/
theorem reset_eq {c : Call} {closed : Bool} {ser : Handle} {g : Ghost}
    (h : rules.right.answer ⟨c, .inside closed⟩ (.resetInputBuffer ser) (.ok ()) g) :
    g = if closed = false ∧ asks c = true then ⟨c, .clear⟩ else ⟨c, .inside closed⟩ := by
  simpa [rules, Protocol.right] using h

/-- **A conversation without a read**, the greeting's or a write's, leaves a transport that is
    known to be open. -/
theorem wp_converse_unread (ser : Handle) (command : Str) (timeout : Rat) {c : Call}
    {closed : Bool} (h : ¬(closed = false ∧ asks c = true)) :
    rules.right.wp (SerialTransport.converse ser command false timeout)
      (fun r g => HoldsFor c g ∧ ∀ x, r = .ok x → x = none ∧ g.stage = .inside false)
      ⟨c, .inside closed⟩ := by
  refine wp_port ⟨rfl, trivial, closed, rfl⟩ (fun _ _ hg => hg.error) ?_
  intro _ g hans
  obtain rfl : g = ⟨c, .inside closed⟩ := (reset_eq hans).trans (if_neg h)
  show rules.right.wp (match encodeAscii (command ++ TERMINATOR) with | _ => _) _ _
  cases encodeAscii (command ++ TERMINATOR) with
  | none => exact HoldsFor.error ⟨rfl, trivial⟩
  | some data =>
      refine wp_port ⟨rfl, trivial, .inr ⟨closed, rfl⟩⟩ (fun _ _ hg => hg.error) ?_
      intro _ g hans
      obtain rfl : g = ⟨c, .inside closed⟩ := hans
      refine wp_port ⟨rfl, trivial, trivial⟩ (fun _ _ hg => hg.error) ?_
      intro _ g hans
      obtain rfl : g = ⟨c, .inside false⟩ := hans
      exact HoldsFor.ok ⟨rfl, trivial⟩ ⟨rfl, rfl⟩

/-- **A query's conversation** reads the first line to have arrived since its own went out. -/
theorem wp_converse_query (ser : Handle) (timeout : Rat) {c : Call} (hc : c.expects = true) :
    rules.right.wp (SerialTransport.converse ser c.command true timeout)
      (fun r g => HoldsFor c g ∧ ∀ x, r = .ok x → ∀ raw, x = some raw → raw ≠ [] →
        ∃ n, g.stage = .got n raw)
      ⟨c, .inside false⟩ := by
  refine wp_port ⟨rfl, trivial, false, rfl⟩ (fun _ _ hg => hg.error) ?_
  intro _ g hans
  have hreset := reset_eq hans
  show rules.right.wp (match encodeAscii (c.command ++ TERMINATOR) with | _ => _) _ _
  cases hdata : encodeAscii (c.command ++ TERMINATOR) with
  | none =>
      refine HoldsFor.error ?_
      rw [hreset]
      split <;> exact ⟨rfl, trivial⟩
  | some data =>
      have hascii : isAscii c.command = true := by
        rw [← isAscii_terminated, ← encodeAscii_isSome, hdata, Option.isSome_some]
      have hasks : asks c = true := by rw [asks, hc, hascii, Bool.and_self]
      obtain rfl : g = ⟨c, .clear⟩ := hreset.trans (if_pos ⟨rfl, hasks⟩)
      refine wp_port ⟨rfl, trivial, .inl ⟨rfl, hdata⟩⟩ (fun _ _ hg => hg.error) ?_
      intro _ g hans
      obtain ⟨n, rfl⟩ : ∃ n, g = ⟨c, .wrote n⟩ := hans
      refine wp_port ⟨rfl, trivial, trivial⟩ (fun _ _ hg => hg.error) ?_
      intro _ g hans
      obtain rfl : g = ⟨c, .wrote n⟩ := hans
      refine wp_port ⟨rfl, trivial, trivial⟩ (fun _ _ hg => hg.error) ?_
      intro _ g hans
      obtain rfl : g = ⟨c, .wrote n⟩ := hans
      refine wp_port ⟨rfl, trivial, n, rfl⟩ (fun _ _ hg => hg.error) ?_
      intro raw g hans
      have hread : if raw.isEmpty then HoldsFor c g
          else ∃ m, Stage.wrote n = .wrote m ∧ g = ⟨c, .got m raw⟩ := hans
      cases hraw : raw.isEmpty with
      | true =>
          rw [if_pos hraw] at hread
          refine hread.ok ?_
          intro raw' hraw' hne
          obtain rfl := Option.some.inj hraw'
          exact absurd (List.isEmpty_iff.mp hraw) hne
      | false =>
          rw [if_neg (by simp [hraw])] at hread
          obtain ⟨m, -, rfl⟩ := hread
          refine HoldsFor.ok ⟨rfl, trivial⟩ ?_
          intro raw' hraw' _
          obtain rfl := Option.some.inj hraw'
          exact ⟨m, rfl⟩

/-- The conversation of a call's own: an answer is the first line to have arrived. -/
theorem wp_converse_own (ser : Handle) (timeout : Rat) (c : Call) :
    rules.right.wp (SerialTransport.converse ser c.command c.expects timeout)
      (fun r g => HoldsFor c g ∧ ∀ x, r = .ok x → ∀ raw, x = some raw → raw ≠ [] →
        ∃ n, g.stage = .got n raw)
      ⟨c, .inside false⟩ := by
  cases hc : c.expects with
  | true => exact wp_converse_query ser timeout hc
  | false =>
      have hquiet : ¬(false = false ∧ asks c = true) := by simp [asks, hc]
      refine Protocol.wp_mono (wp_converse_unread ser c.command timeout hquiet) ?_
      rintro r g ⟨hholds, hnone⟩
      refine ⟨hholds, ?_⟩
      intro x hx raw hraw
      obtain ⟨rfl, -⟩ := hnone x hx
      cases hraw

/-- **One transaction of the event loop**, by the worker's rules. -/
theorem wp_wired {g : Ghost} {h : loopRules.Held} (o : SerialOp)
    (hinv : loopRules.invoke g o h) :
    rules.wp (wired T o) (fun r g' => loopRules.answer h o r g') g := by
  have hop : (∀ command expects timeout,
      o ≠ .toThread (.transactBlocking command expects timeout)) →
      rules.wp (Coro.op (S := Wired) (.inl o) : Coro Wired Exc o.Res)
        (fun r g' => loopRules.answer h o r g') g := by
    intro hne
    refine (Protocol.wp_op ..).mpr ⟨h, ?_, fun r g' hans => hans⟩
    cases o with
    | toThread job =>
        cases job with
        | transactBlocking command expects timeout => exact absurd rfl (hne _ _ _)
        | _ => exact hinv
    | _ => exact hinv
  cases o with
  | toThread job =>
      cases job with
      | transactBlocking command expects timeout =>
          obtain ⟨c, stage⟩ := g
          obtain ⟨rfl, ⟨rfl, rfl⟩ | ⟨rfl, rfl, rfl⟩⟩ := hinv
          · refine (Protocol.wp_inr ..).mpr (Protocol.wp_mono (wp_transactBlocking T
              (g := ⟨c, .inside true⟩) (Φ := fun _ g' => g'.stage = .inside false) trivial
              fun ser => ?_) ?_)
            · refine Protocol.wp_mono (wp_converse_unread ser command timeout
                (fun hclosed => by simp at hclosed)) ?_
              exact fun r g' h => ⟨h.1, fun x hx => (h.2 x hx).2⟩
            · rintro (e | y) g' ⟨hholds, hy⟩
              · exact hholds
              · refine ⟨hholds.1, ?_⟩
                obtain ⟨-, h⟩ | ⟨raw, -, -, h⟩ := hy y rfl
                · simpa using h
                · simpa using h
          · refine (Protocol.wp_inr ..).mpr (Protocol.wp_mono (wp_transactBlocking T
              (g := ⟨c, .inside false⟩) trivial (wp_converse_own · timeout c)) ?_)
            rintro (e | y) g' ⟨hholds, hy⟩
            · exact hholds
            · refine ⟨hholds.1, ?_⟩
              simp only [Stage.inside.injEq, Bool.false_eq_true, if_false]
              refine ⟨hholds.2, ?_⟩
              rintro s rfl
              obtain ⟨h, -⟩ | ⟨raw, hne, hs, h⟩ := hy _ rfl
              · cases h
              · obtain ⟨n, hn⟩ := h raw rfl hne
                exact ⟨n, raw, hn, Option.some.inj hs⟩
      | _ => exact hop (fun _ _ _ => by simp)
  | _ => exact hop (fun _ _ _ => by simp)

end Transaction

/-! ## A call -/

section Manager

variable (T : SerialTransport) (timeout : Rat)

theorem holds_shut {stage : Stage} (h : stage.holds) : stage.shut.holds := by
  cases stage <;> exact h

/-- What a task does at any time while it holds the lock keeps whatever `shut` keeps. -/
theorem maintains_plain {c : Call} {A : Stage → Prop} (hA : ∀ stage, A stage → stage.holds)
    (hshut : ∀ stage, A stage → A stage.shut) {α : Type} {p : Coro Serial Exc α}
    (hp : p.Uses SerialOp.Plain) : loopRules.Maintains (fun g => g.call = c ∧ A g.stage) p := by
  refine Protocol.maintains_of_uses hp fun o h => Protocol.maintains_op ?_
  rintro g ⟨hc, hg⟩
  have hholds := hA _ hg
  have keep : ∀ g' : Ghost, g'.call = g.call → g'.stage = g.stage ∨ g'.stage = g.stage.shut →
      g'.call = c ∧ A g'.stage := by
    rintro g' hc' (h | h)
    · exact ⟨hc'.trans hc, h ▸ hg⟩
    · exact ⟨hc'.trans hc, h ▸ hshut _ hg⟩
  cases o with
  | acquire => exact h.elim
  | release => exact h.elim
  | setSerial ser => exact ⟨g, ⟨rfl, hholds⟩, fun r g' hans => keep g' hans.1 (.inl hans.2)⟩
  | getSerial =>
      refine ⟨g, ⟨rfl, hholds⟩, ?_⟩
      rintro (e | _ | ser) g' ⟨hc', hans⟩
      · exact keep g' hc' (.inl hans)
      · exact keep g' hc' (.inr hans)
      · exact keep g' hc' (.inl hans)
  | handleIsOpen ser =>
      refine ⟨g, ⟨rfl, hholds⟩, ?_⟩
      rintro (e | _ | _) g' ⟨hc', hans⟩
      · exact keep g' hc' (.inl hans)
      · exact keep g' hc' (.inr hans)
      · exact keep g' hc' (.inl hans)
  | toThread job =>
      cases job with
      | transactBlocking command expects timeout => exact h.elim
      | construct port baudRate =>
          exact ⟨g, ⟨rfl, hholds⟩, fun r g' hans => keep g' hans.1 (.inl hans.2)⟩
      | close ser => exact ⟨g, ⟨rfl, hholds⟩, fun r g' hans => keep g' hans.1 (.inl hans.2)⟩

/-- Closing makes no transaction. -/
theorem plain_safeClose : (serialManager T timeout).safeClose.Uses SerialOp.Plain :=
  SerialTransport.plain_close.tryExcept fun e => by
    cases e with
    | transportError e => exact Coro.uses_pure _
    | _ => exact Coro.uses_raise _

/-- A program without transactions keeps the lock and the call. -/
theorem maintains_holds {c : Call} {α : Type} {p : Coro Serial Exc α} (hp : p.Uses SerialOp.Plain) :
    loopRules.Maintains (HoldsFor c) p :=
  maintains_plain (fun _ h => h) (fun _ h => holds_shut h) hp

/-- The connection is dropped under the lock. -/
theorem wp_drop {α : Type} {c : Call} (e : Exc) {g : Ghost} (hg : HoldsFor c g) :
    loopRules.wp ((serialManager T timeout).safeClose >>= fun _ => (.raise e : Coro Serial Exc α))
      (fun r g' => HoldsFor c g' ∧ ∀ a, r ≠ .ok a) g := by
  refine (Protocol.wp_bind ..).mpr
    (Protocol.wp_mono (maintains_holds (plain_safeClose T timeout) g hg) ?_)
  rintro (e | _) g' hg'
  · exact ⟨hg', fun a h => by cases h⟩
  · exact ⟨hg', fun a h => by cases h⟩

/-- What is sent while the transport is known to be shut, or open. -/
theorem wp_transact {command : Str} {expects : Bool} {limit : Rat} {g : Ghost}
    (hg : g.stage.holds) {Q : Except Exc (Option Str) → Ghost → Prop}
    (hinv : loopRules.invoke g (.toThread (.transactBlocking command expects limit)) g)
    (hraise : ∀ e g', HoldsFor g.call g' → Q (.error e) g')
    (hok : ∀ x g', loopRules.answer g (.toThread (.transactBlocking command expects limit))
      (.ok x) g' → Q (.ok x) g') :
    loopRules.wp (SerialTransport.transact command expects limit) Q g := by
  refine (Protocol.wp_bind ..).mpr ((Protocol.wp_op ..).mpr ⟨g, ⟨rfl, hg⟩, ?_⟩)
  rintro (e | _ | ser) g' ⟨hcall, hstage⟩
  · exact hraise e g' ⟨hcall, hstage ▸ hg⟩
  · exact hraise _ g' ⟨hcall, hstage ▸ holds_shut hg⟩
  · obtain rfl : g' = g := Ghost.ext hcall hstage
    refine (Protocol.wp_op ..).mpr ⟨g', hinv, ?_⟩
    rintro (e | x) g'' hans
    · exact hraise e g'' hans
    · exact hok x g'' hans

/-- **Opening**: the greeting is all that is sent, and it leaves an open transport. -/
theorem wp_reconnect (c : Call) :
    loopRules.wp (serialManager T timeout).reconnect
      (fun r g => HoldsFor c g ∧ (r = .ok () → g = ⟨c, .inside false⟩)) ⟨c, .inside true⟩ := by
  have hconnect : loopRules.wp (serialManager T timeout).connect
      (fun r g => HoldsFor c g ∧ (r = .ok () → g = ⟨c, .inside false⟩)) ⟨c, .inside true⟩ := by
    have hopen := maintains_plain (c := c) (A := (· = Stage.inside true))
      (by rintro _ rfl; trivial) (by rintro _ rfl; rfl) T.plain_open
    refine (Protocol.wp_bind ..).mpr (Protocol.wp_mono (hopen _ ⟨rfl, rfl⟩) ?_)
    rintro (e | _) g ⟨hcall, hstage⟩
    · exact ⟨⟨hcall, hstage ▸ trivial⟩, fun h => by cases h⟩
    obtain rfl : g = ⟨c, .inside true⟩ := Ghost.ext hcall hstage
    refine (Protocol.wp_bind ..).mpr
      (wp_transact (g := ⟨c, .inside true⟩) trivial ⟨rfl, .inl ⟨rfl, rfl⟩⟩ ?_ ?_)
    · exact fun e g' hg' => ⟨hg', fun h => by cases h⟩
    · rintro x g' ⟨hcall', hstage'⟩
      simp only [if_true] at hstage'
      exact ⟨⟨hcall', hstage' ▸ trivial⟩, fun _ => Ghost.ext hcall' hstage'⟩
  refine (Protocol.wp_tryExcept ..).mpr (Protocol.wp_mono hconnect ?_)
  rintro (e | _) g ⟨hg, hok⟩
  · cases e with
    | transportError e =>
        refine Protocol.wp_mono (wp_drop T timeout _ hg) ?_
        exact fun r g' h => ⟨h.1, fun hr => absurd hr (h.2 ())⟩
    | _ => exact ⟨hg, fun h => by cases h⟩
  · exact ⟨hg, hok⟩

/-- What a task finds when it looks, it keeps in mind. -/
theorem wp_isOpen (c : Call) :
    loopRules.wp SerialTransport.isOpen (fun r g => ∃ closed, g = ⟨c, .inside closed⟩ ∧
      ∀ isOpen, r = .ok isOpen → closed = !isOpen) ⟨c, .inside false⟩ := by
  refine (Protocol.wp_bind ..).mpr ((Protocol.wp_op ..).mpr ⟨_, ⟨rfl, trivial⟩, ?_⟩)
  rintro (e | _ | ser) g ⟨hcall, hstage⟩
  · exact ⟨false, Ghost.ext hcall hstage, fun _ h => by cases h⟩
  · exact ⟨true, Ghost.ext hcall hstage, fun _ h => by cases h; rfl⟩
  obtain rfl : g = ⟨c, .inside false⟩ := Ghost.ext hcall hstage
  refine (Protocol.wp_op ..).mpr ⟨_, ⟨rfl, trivial⟩, ?_⟩
  rintro (e | _ | _) g ⟨hcall, hstage⟩
  · exact ⟨false, Ghost.ext hcall hstage, fun _ h => by cases h⟩
  · exact ⟨true, Ghost.ext hcall hstage, fun _ h => by cases h; rfl⟩
  · exact ⟨false, Ghost.ext hcall hstage, fun _ h => by cases h; rfl⟩

/-- Past `ensure_open` the transport has been found open. -/
theorem wp_ensureOpen (c : Call) :
    loopRules.wp (serialManager T timeout).ensureOpen
      (fun r g => HoldsFor c g ∧ (r = .ok () → g = ⟨c, .inside false⟩)) ⟨c, .inside false⟩ := by
  refine (Protocol.wp_bind ..).mpr (Protocol.wp_mono (wp_isOpen c) ?_)
  rintro (e | isOpen) _ ⟨closed, rfl, hclosed⟩
  · exact ⟨⟨rfl, trivial⟩, fun h => by cases h⟩
  · rw [hclosed isOpen rfl]
    cases isOpen with
    | true => exact ⟨⟨rfl, trivial⟩, fun _ => rfl⟩
    | false => exact wp_reconnect T timeout c

/-- What an answer is: the line that was first to arrive. -/
def Answered (r : Except Exc (Option Str)) (stage : Nat → Bytes → Stage) (g : Ghost) : Prop :=
  ∀ s, r = .ok (some s) → ∃ n raw, g.stage = stage n raw ∧ s = strip (decodeAscii raw)

/-- An attempt returns the reply to its own line, if it returns. -/
theorem wp_attempt (c : Call) (limit : Rat) :
    loopRules.wp ((serialManager T timeout).attempt c.command c.expects limit)
      (fun r g => HoldsFor c g ∧ Answered r .got g) ⟨c, .inside false⟩ := by
  have hraise : ∀ (e : Exc) (g : Ghost), HoldsFor c g →
      HoldsFor c g ∧ Answered (.error e) .got g := fun e g hg => ⟨hg, fun s h => by cases h⟩
  refine (Protocol.wp_tryExcept ..).mpr
    (wp_transact (g := ⟨c, .inside false⟩) trivial ⟨rfl, .inr ⟨rfl, rfl, rfl⟩⟩ ?_ ?_)
  · intro e g hg
    cases e with
    | transportError e =>
        refine Protocol.wp_mono (wp_drop T timeout _ hg) ?_
        exact fun r g' h => ⟨h.1, fun s hs => absurd hs (h.2 _)⟩
    | _ => exact hraise _ g hg
  · rintro x g ⟨hcall, hans⟩
    simp only [Stage.inside.injEq, Bool.false_eq_true, if_false] at hans
    refine ⟨⟨hcall, hans.1⟩, ?_⟩
    intro s hs
    exact hans.2 s (Except.ok.inj hs)

/-- **A transaction**, from the lock to the lock. -/
theorem wp_exchange (c : Call) :
    loopRules.wp ((serialManager T timeout).transact c.command c.expects c.timeout)
      (fun r g => g.call = c ∧ Answered r .done g) ⟨c, .outside⟩ := by
  have hraise : ∀ (e : Exc) (g : Ghost), g.call = c → g.call = c ∧ Answered (.error e) .done g :=
    fun e g hg => ⟨hg, fun s h => by cases h⟩
  refine (Protocol.wp_bind ..).mpr ((Protocol.wp_op ..).mpr ⟨_, ⟨rfl, rfl⟩, ?_⟩)
  rintro (e | _) g ⟨hcall, hstage⟩
  · exact hraise e g hcall
  obtain rfl : g = ⟨c, .inside false⟩ := Ghost.ext hcall hstage
  have hbody : loopRules.wp ((serialManager T timeout).exchange c.command c.expects
      (c.timeout.getD (serialManager T timeout).defaultTimeout))
      (fun r g => HoldsFor c g ∧ Answered r .got g) ⟨c, .inside false⟩ := by
    refine (Protocol.wp_bind ..).mpr (Protocol.wp_mono (wp_ensureOpen T timeout c) ?_)
    rintro (e | _) g ⟨hg, hok⟩
    · exact ⟨hg, fun s h => by cases h⟩
    · rw [hok rfl]
      exact wp_attempt T timeout c _
  refine (Protocol.wp_tryFinally ..).mpr (Protocol.wp_mono hbody ?_)
  intro r g ⟨hg, hans⟩
  refine (Protocol.wp_op ..).mpr ⟨g, ⟨rfl, hg.2⟩, ?_⟩
  rintro (e | _) g' ⟨hcall', hstage'⟩
  · exact hraise e g' (hcall'.trans hg.1)
  · refine ⟨hcall'.trans hg.1, ?_⟩
    intro s hs
    obtain ⟨n, raw, hgot, hraw⟩ := hans s hs
    refine ⟨n, raw, ?_, hraw⟩
    rw [hstage', hgot]
    rfl

/-- **A call** returns the line that was first to arrive after its own went out. -/
theorem wp_call (c : Call) :
    rules.wp (((serialManager T timeout).call c).translate (wired T))
      (fun r g => g.call = c ∧ Answered r .done g) ⟨c, .outside⟩ := by
  have hcall : loopRules.wp ((serialManager T timeout).call c)
      (fun r g => g.call = c ∧ Answered r .done g) ⟨c, .outside⟩ := by
    have h := wp_exchange T timeout c
    cases c with
    | query command limit =>
        refine (Protocol.wp_bind ..).mpr ((Protocol.wp_bind ..).mpr (Protocol.wp_mono h ?_))
        rintro (e | _ | s) g ⟨hcall, hans⟩
        · exact ⟨hcall, fun s h => by cases h⟩
        · exact ⟨hcall, fun s h => by cases h⟩
        · exact ⟨hcall, hans⟩
    | write command limit =>
        refine (Protocol.wp_bind ..).mpr ((Protocol.wp_bind ..).mpr (Protocol.wp_mono h ?_))
        rintro (e | x) g ⟨hcall, -⟩
        · exact ⟨hcall, fun s h => by cases h⟩
        · exact ⟨hcall, fun s h => by cases h⟩
  have hwired : ∀ (g' g : Ghost) o h, g' = g → loopRules.invoke g' o h →
      rules.wp (wired T o) (fun r k => ∃ k', loopRules.answer h o r k' ∧ k' = k) g := by
    rintro g _ o h rfl hinv
    exact Protocol.wp_mono (wp_wired T o hinv) fun r g' hans => ⟨g', hans, rfl⟩
  refine Protocol.wp_mono (Protocol.wp_translate (P := rules)
    (R := fun (g' : loopRules.Ghost) (g : rules.Ghost) => g' = g) hwired hcall rfl) ?_
  rintro r g ⟨_, h, rfl⟩
  exact h

end Manager

end LateReplies
