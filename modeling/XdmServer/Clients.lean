import XdmServer.Interleaving
import XdmServer.Manager
import XdmServer.ScpiServer

/-! # Clients on one meter

    Any number of SCPI clients, pollers and web requests share one manager.  A
    transaction of the transport has a beginning and an end, between which the others
    may run, and in between it acts on the meter, once.  Where anything else touches the
    transport meanwhile, it is jammed: from then on any answer may come and the meter
    may do anything.  The front panel may change the meter at any time.

    `log` is the order in which the transactions acted on the meter and the front panel
    was used; `replay` executes it. -/

namespace Clients

open PyText Coroutine Commands Device Interleaving Scpi

variable {M ι : Type}

/-- What acted on the meter.  A transaction is logged with the number of lines its client
    has sent so far, and with whether it greets a connection just opened. -/
inductive Event (M ι : Type) where
  | panel (m : M)
  /-- The transport could not be opened. -/
  | refused (t : ι) (line : Nat)
  | ran (t : ι) (line : Nat) (greeting : Bool) (command : Str) (expects executed success : Bool)

/-- What a task sees of an event of its own: a transaction with its reply. -/
inductive Turn where
  | refused (line : Nat)
  | ran (line : Nat) (greeting : Bool) (command : Str) (expects success : Bool)
      (reply : Option Str)

section Replay

variable (exec : M → Str → Option Str × M)

/-- The meter after an event. -/
def Event.apply (m : M) : Event M ι → M
  | .panel m' => m'
  | .refused _ _ => m
  | .ran _ _ _ command _ executed _ => if executed then (exec m command).2 else m

/-- What `t` sees of an event that acts on `m`. -/
def Event.turn [DecidableEq ι] (t : ι) (m : M) : Event M ι → Option Turn
  | .panel _ => none
  | .refused u line => if u = t then some (.refused line) else none
  -- the reply is the one that the meter gives here, in the order
  | .ran u line greeting command expects _ success =>
      if u = t then
        some (.ran line greeting command expects success
          (if success && expects then (exec m command).1 else none))
      else none

/-- The meter after the events, executed one after the other. -/
def replay (m : M) (events : List (Event M ι)) : M := events.foldl (Event.apply exec) m

/-- What `t` sees when the events are executed one after the other. -/
def turns [DecidableEq ι] (t : ι) : M → List (Event M ι) → List Turn
  | _, [] => []
  | m, e :: events => (e.turn exec t m).toList ++ turns t (e.apply exec m) events

theorem replay_concat (m : M) (events : List (Event M ι)) (e : Event M ι) :
    replay exec m (events ++ [e]) = e.apply exec (replay exec m events) :=
  List.foldl_concat _ _ _ _

theorem turns_concat [DecidableEq ι] (t : ι) (m : M) (events : List (Event M ι)) (e : Event M ι) :
    turns exec t m (events ++ [e])
      = turns exec t m events ++ (e.turn exec t (replay exec m events)).toList := by
  induction events generalizing m with
  | nil => exact List.append_nil _
  | cons e' events ih =>
      show (e'.turn exec t m).toList ++ turns exec t (e'.apply exec m) (events ++ [e]) = _
      rw [ih, ← List.append_assoc]
      rfl

end Replay

/-! ## The system -/

/-- A transaction under way. -/
structure Flight where
  command : Str
  expects : Bool
  timeout : Rat
  greeting : Bool
  /-- What it has come to, once it has acted. -/
  result : Option (Except TransportError (Option Str))

/-- What the worker thread is at. -/
inductive Slot (ι : Type) where
  | free
  | busy (t : ι) (f : Flight)
  | jammed

/-- What a task may be. -/
inductive Entry where
  /-- A SCPI client that sends these lines. -/
  | client (lines : List ClientLine)
  /-- The poller, a web request, or anything else that calls the manager. -/
  | other (p : Coro Calls Exc Unit)

/-- The meter, the lock, the connection and the clients' accounts. -/
structure Shop (M ι : Type) where
  meter : M
  holder : Option ι
  isOpen : Bool
  /-- The connection was just opened, and nothing was sent on it. -/
  fresh : Bool
  slot : Slot ι
  serving : ι → Option Entry
  /-- How many lines each client's session has read, and what it has sent. -/
  read : ι → Nat
  sent : ι → List Bytes
  log : List (Event M ι)

/-- The calls of the transport, of the lock and of a client's streams. -/
abbrev Wire : Signature := Line.sum Socket

/-- The operations of a session, by what the manager does for them. -/
def perform (timeout : Rat) : (o : Session.Op) → Coro Wire Exc (Session.Res o)
  | .inl c => ((lineManager timeout).perform c).inl
  | .inr o => .op (S := Wire) (.inr o)

/-- The program of a task. -/
def Entry.code (timeout : Rat) : Entry → Coro Wire Exc Unit
  | .client lines =>
      (handleClient ((lines.map ClientLine.body).map terminated).flatten).translate
        (perform timeout)
  | .other p => (p.inl : Coro Session Exc Unit).translate (perform timeout)

/-- How an operation comes out. -/
inductive Choice (M : Type) where
  | done
  | fails (e : TransportError)
  | garbled (result : Except TransportError (Option Str)) (m : M)

/-- What happens to the transaction under way. -/
inductive Fate where
  | completes
  /-- The transport fails, before or after the meter has run the command. -/
  | fails (executed : Bool) (e : TransportError)

/-- What happens beside the clients: the front panel, or the fate of the flight. -/
inductive Env (M : Type) where
  | panel (m : M)
  | act (fate : Fate)

variable [DecidableEq ι]

/-- A task starts; each does so once. -/
def Shop.start (s : Shop M ι) (t : ι) (e : Entry) : Option (Shop M ι) :=
  if (s.serving t).isNone then some { s with serving := Function.update s.serving t (some e) }
  else none

/-- Something touches the transport. -/
def Shop.touch (s : Shop M ι) : Shop M ι :=
  match s.slot with
  | .free => s
  | _ => { s with slot := .jammed }

/-- What an operation does at once. -/
def Shop.invoke (s : Shop M ι) (t : ι) : Wire.Op → Shop M ι
  | .inl .open_ => s.touch
  | .inl .close => s.touch
  | .inl (.transact command expects timeout) =>
      match s.slot with
      | .free =>
          { s with fresh := false, slot := .busy t ⟨command, expects, timeout, s.fresh, none⟩ }
      -- a second transaction on the line jams both
      | _ => s.touch
  | _ => s

/-- How an operation comes out; `none` where it cannot come out so yet. -/
def Shop.answer (s : Shop M ι) (t : ι) :
    (o : Wire.Op) → Choice M → Option (Except Exc (Wire.Res o) × Shop M ι)
  | .inl .acquire, .done =>
      if s.holder.isNone then some (.ok (), { s with holder := some t }) else none
  | .inl .release, .done => some (.ok (), { s with holder := none })
  | .inl .isOpen, .done => some (.ok s.isOpen, s)
  | .inl .open_, .done => some (.ok (), { s with isOpen := true, fresh := true })
  | .inl .open_, .fails e =>
      some (.error (.transportError e), { s with log := s.log ++ [.refused t (s.read t)] })
  | .inl .close, .done => some (.ok (), { s with isOpen := false })
  | .inl .close, .fails e => some (.error (.transportError e), { s with isOpen := false })
  | .inl (.transact _ _ _), .done =>
      match s.slot with
      | .busy u f =>
          -- it comes out once it has acted
          if u = t then f.result.map fun r =>
            (r.mapError .transportError, { s with slot := .free })
          else none
      | _ => none
  | .inl (.transact _ _ _), .garbled r m =>
      match s.slot with
      -- anything may come of a transaction on a jammed line
      | .jammed => some (r.mapError .transportError, { s with meter := m })
      | _ => none
  | .inr .readline, .done =>
      some (.ok (), { s with read := Function.update s.read t (s.read t + 1) })
  | .inr (.write data), .done =>
      some (.ok (), { s with sent := Function.update s.sent t (s.sent t ++ [data]) })
  | .inr .drain, .done => some (.ok (), s)
  | .inr .close, .done => some (.ok (), s)
  | .inr .waitClosed, .done => some (.ok (), s)
  | _, _ => none

variable (exec : M → Str → Option Str × M)

/-- What a transaction that the transport completes comes to. -/
def Flight.complete (f : Flight) (reply : Option Str) : Except TransportError (Option Str) :=
  if f.expects then
    match reply with
    | some reply => .ok (some reply)
    | none => .error (.noResponse f.command f.timeout)
  else .ok none

/-- The transaction `f` of `t` acts on the meter. -/
def Shop.act (s : Shop M ι) (t : ι) (f : Flight) : Fate → Option (Shop M ι)
  | .completes =>
      if s.isOpen then
        let x := exec s.meter f.command
        let success := !(f.expects && x.1.isNone)
        some { s with
          meter := x.2
          slot := .busy t { f with result := some (f.complete x.1) }
          log := s.log ++ [.ran t (s.read t) f.greeting f.command f.expects true success] }
      else none
  | .fails executed e =>
      some { s with
        meter := if executed then (exec s.meter f.command).2 else s.meter
        slot := .busy t { f with result := some (.error e) }
        log := s.log ++ [.ran t (s.read t) f.greeting f.command f.expects executed false] }

/-- A step that no client takes; `none` where it cannot be. -/
def Shop.env (s : Shop M ι) : Env M → Option (Shop M ι)
  | .panel m => some { s with meter := m, log := s.log ++ [.panel m] }
  | .act fate =>
      match s.slot with
      -- a transaction acts once
      | .busy t f => if f.result.isNone then s.act exec t f fate else none
      | _ => none

variable (timeout : Rat)

/-- Clients, pollers and web requests on one manager. -/
def clients : System Wire Exc Unit ι (Shop M ι) where
  Entry := Entry
  Choice := Choice M
  Env := Env M
  code := Entry.code timeout
  start := Shop.start
  invoke := Shop.invoke
  answer := Shop.answer
  env := Shop.env exec

/-- Nobody has started. -/
def initial (m : M) (isOpen : Bool) : Config Wire Exc Unit ι (Shop M ι) where
  shared := {
    meter := m
    holder := none
    isOpen := isOpen
    fresh := false
    slot := .free
    serving := fun _ => none
    read := fun _ => 0
    sent := fun _ => []
    log := [] }
  point _ := .ready (.ret ())

end Clients
