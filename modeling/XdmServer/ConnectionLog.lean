import XdmServer.Transport

/-! # What happens on a connection

    The log of a transport: each opening, each command handed to it, each result,
    each close.  `Conn` follows one connection along the log, and `LocalFirst` says
    that on every connection of the log `SYST:LOC` went first, and nothing else
    before it had succeeded. -/

namespace ConnectionLog

open PyText Commands Device

/-- What may happen to a connection. -/
inductive Event where
  | opened
  | openFailed (exc : TransportError)
  | sent (command : Str)
  | answered (command : Str) (result : Except TransportError (Option Str))
  | closed

/-- Where a connection stands: there is none, it is newly opened, or the meter has
    been put in LOCAL mode on it. -/
inductive Conn where
  | closed
  | fresh
  | inLocal
  deriving DecidableEq

/-- Whether the event may happen on the connection. -/
def Conn.allows : Conn → Event → Bool
  | .closed, .sent _ => false
  | .fresh, .sent command => command = LOCAL
  | _, _ => true

/-- A connection after one event: it is in LOCAL mode once `SYST:LOC` was answered first. -/
def Conn.next : Conn → Event → Conn
  | _, .opened => .fresh
  | _, .closed => .closed
  | .fresh, .answered command (.ok _) => if command = LOCAL then .inLocal else .fresh
  | c, _ => c

/-- The connection after a log that starts with none. -/
def conn (log : List Event) : Conn := log.foldl Conn.next .closed

/-- Every event of the log is allowed where it happens. -/
def orderly : Conn → List Event → Bool
  | _, [] => true
  | c, e :: es => c.allows e && orderly (c.next e) es

/-- **LOCAL first**: on every connection opened along the log the first command sent
    is `SYST:LOC`, and no other command is sent before it has succeeded. -/
def LocalFirst (log : List Event) : Prop := orderly .closed log = true

instance (log : List Event) : Decidable (LocalFirst log) :=
  inferInstanceAs (Decidable (_ = _))

/-- The connection after a log is the one after its beginning, led on. -/
theorem conn_append (log es : List Event) : conn (log ++ es) = es.foldl Conn.next (conn log) :=
  List.foldl_append

/-- A log is orderly if both its parts are, the second from where the first has led. -/
theorem orderly_append (c : Conn) (log es : List Event) :
    orderly c (log ++ es) = (orderly c log && orderly (log.foldl Conn.next c) es) := by
  induction log generalizing c with
  | nil => rfl
  | cons e log ih =>
      show (c.allows e && orderly (c.next e) (log ++ es)) = _
      rw [ih, ← Bool.and_assoc]
      rfl

/-- `SYST:LOC` came first if it did so up to a point and from there on. -/
theorem localFirst_append {log es : List Event} :
    LocalFirst (log ++ es) ↔ LocalFirst log ∧ orderly (conn log) es = true := by
  show orderly .closed (log ++ es) = true ↔ _
  rw [orderly_append, Bool.and_eq_true]
  exact Iff.rfl

/-- The commands handed to the transport. -/
def commands (log : List Event) : List Str :=
  log.filterMap fun
    | .sent command => some command
    | _ => none

/-- The failures of an opening or of a transaction. -/
def failures (log : List Event) : List TransportError :=
  log.filterMap fun
    | .openFailed exc => some exc
    | .answered _ (.error exc) => some exc
    | _ => none

/-- The results of the transactions that succeeded. -/
def results (log : List Event) : List (Option Str) :=
  log.filterMap fun
    | .answered _ (.ok r) => some r
    | _ => none

end ConnectionLog
