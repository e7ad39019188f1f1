import XdmServer.ScpiServer

/-! # Sessions

    A session of `_handle_client` that runs alone, over any manager `K`: what it
    executes, what it sends, and when an exception ends it.

    `execute` runs the calls of all lines, whatever comes of them.  `loop_run` says that
    a session does just this as long as no line `Breaks` it. -/

namespace Sessions

open PyText Coroutine Coro Commands Device Scpi

variable {σ : Type} (K : Handler Calls Exc σ)

/-- The operations of a session: the manager's state, and what was sent so far.  The
    network does not fail. -/
def serve : Handler Session Exc (σ × List Bytes)
  | .inl c, s => ((K c s.1).1, ((K c s.1).2, s.2))
  | .inr (.write data), s => (.ok (), (s.1, s.2 ++ [data]))
  | .inr _, s => (.ok (), s)

/-- What a call of the manager gives the client, if it returns. -/
def replies (c : Call) : Except Exc c.Res → List Str
  | .ok v => (replyOf c v).toList
  | .error _ => []

/-- All calls of the lines, one after the other: what the queries among them return, and
    the state of the manager after them. -/
def execute : List Bytes → σ → List Str × σ
  | [], d => ([], d)
  | line :: lines, d =>
      match callOf line with
      | none => execute lines d
      | some c =>
          let rest := execute lines (K c d).2
          (replies c (K c d).1 ++ rest.1, rest.2)

/-- The bytes of an answer, if it has any. -/
def replyBytes (reply : Str) : Option Bytes := (encodeAscii reply).map terminated

/-- An exception leaves the loop: the call raises one that is no `DeviceError`, or what it
    returns cannot be encoded. -/
def Breaks (d : σ) (line : Bytes) : Prop :=
  ∃ c, callOf line = some c ∧
    ((∃ e, (K c d).1 = .error e ∧ ∀ e', e ≠ .deviceError e') ∨
      ∃ v reply, (K c d).1 = .ok v ∧ replyOf c v = some reply ∧ isAscii reply = false)

/-- What the client gets for a call, unless it ends the session. -/
def swallowed (c : Call) : Except Exc c.Res → Except Exc (Option Str)
  | .ok v => .ok (replyOf c v)
  | .error (.deviceError _) => .ok none
  | .error e => .error e

/-- A line is answered by its call, if it makes one. -/
theorem handleCommand_run (line : Bytes) (d : σ) :
    (handleCommand (decodeAscii line)).run K d = match callOf line with
      | none => (.ok none, d)
      | some c => (swallowed c (K c d).1, (K c d).2) := by
  rw [handleCommand_eq]
  cases callOf line with
  | none => rfl
  | some c =>
      show Coro.run K (andThen _ _) d = (swallowed c (K c d).1, (K c d).2)
      rw [run_andThen, run_op]
      rcases K c d with ⟨e | v, d'⟩
      · cases e <;> rfl
      · rfl

/-- Once around the loop. -/
theorem handleLine_run (line : Bytes) (d : σ) (sent : List Bytes) :
    (handleLine line).run (serve K) (d, sent)
      = match (handleCommand (decodeAscii line)).run K d with
        | (.error e, d') => (.error e, (d', sent))
        | (.ok none, d') => (.ok (), (d', sent))
        | (.ok (some reply), d') => match replyBytes reply with
            | none => (.error .unicodeEncodeError, (d', sent))
            | some data => (.ok (), (d', sent ++ [data])) := by
  have hleft : ((handleCommand (decodeAscii line)).inl : Coro Session Exc _).run (serve K) (d, sent)
      = (((handleCommand (decodeAscii line)).run K d).1,
        (((handleCommand (decodeAscii line)).run K d).2, sent)) := by
    refine (run_inl ..).trans ((handleCommand_run (fun c x => serve K (.inl c) x) line
      (d, sent)).trans ?_)
    rw [handleCommand_run]
    cases callOf line <;> rfl
  unfold handleLine
  dsimp only
  rw [run_bind, hleft]
  rcases (handleCommand (decodeAscii line)).run K d with ⟨e | (_ | reply), d'⟩
  · rfl
  · rfl
  · unfold replyBytes
    dsimp only
    cases encodeAscii reply <;> rfl

/-- **A line that does not break the session**: its call is made, and its answer sent. -/
theorem handleLine_fine {line : Bytes} {d : σ} (h : ¬ Breaks K d line) (sent : List Bytes) :
    ∃ data, (handleLine line).run (serve K) (d, sent)
        = (.ok (), ((execute K [line] d).2, sent ++ data)) ∧
      data.map some = (execute K [line] d).1.map replyBytes := by
  rw [handleLine_run, handleCommand_run, execute]
  cases hcall : callOf line with
  | none => exact ⟨[], by rw [List.append_nil]; rfl, rfl⟩
  | some c =>
      dsimp only
      rcases hres : (K c d).1 with e | v
      · cases e with
        | deviceError e => exact ⟨[], by rw [List.append_nil]; rfl, rfl⟩
        | _ => exact absurd ⟨c, hcall, .inl ⟨_, hres, fun e' h => nomatch h⟩⟩ h
      · dsimp only [swallowed, replies]
        cases hreply : replyOf c v with
        | none => exact ⟨[], by rw [List.append_nil]; rfl, rfl⟩
        | some reply =>
            cases hbytes : encodeAscii reply with
            | none =>
                exact absurd ⟨c, hcall, .inr ⟨v, reply, hres, hreply,
                  encodeAscii_eq_none.mp hbytes⟩⟩ h
            | some data =>
                have hsome : replyBytes reply = some (terminated data) :=
                  congrArg (Option.map terminated) hbytes
                refine ⟨[terminated data], ?_, ?_⟩
                · show (match replyBytes reply with | none => _ | some data => _) = _
                  rw [hsome]
                  rfl
                · show _ = [replyBytes reply]
                  rw [hsome]
                  rfl

/-- **A line that breaks the session** ends the loop with an exception. -/
theorem handleLine_breaks {line : Bytes} {d : σ} (h : Breaks K d line) (sent : List Bytes) :
    ∃ e d', (handleLine line).run (serve K) (d, sent) = (.error e, (d', sent)) ∧
      (e = .unicodeEncodeError ∨ ∃ c, callOf line = some c ∧ (K c d).1 = .error e) := by
  obtain ⟨c, hcall, h⟩ := h
  rw [handleLine_run, handleCommand_run, hcall]
  dsimp only
  obtain ⟨e, hres, hnot⟩ | ⟨v, reply, hres, hreply, hascii⟩ := h
  · rw [hres]
    cases e with
    | deviceError e => exact absurd rfl (hnot e)
    | _ => exact ⟨_, _, rfl, .inr ⟨c, rfl, hres⟩⟩
  · rw [hres]
    have hnone : replyBytes reply = none :=
      congrArg (Option.map terminated) (encodeAscii_eq_none.mpr hascii)
    dsimp only [swallowed]
    rw [hreply]
    dsimp only
    rw [hnone]
    exact ⟨_, _, rfl, .inl rfl⟩

/-! ## Whole sessions -/

theorem execute_append (lines₁ lines₂ : List Bytes) (d : σ) :
    execute K (lines₁ ++ lines₂) d
      = ((execute K lines₁ d).1 ++ (execute K lines₂ (execute K lines₁ d).2).1,
        (execute K lines₂ (execute K lines₁ d).2).2) := by
  induction lines₁ generalizing d with
  | nil => rfl
  | cons line lines₁ ih =>
      show execute K (line :: (lines₁ ++ lines₂)) d = _
      rw [execute, execute]
      cases callOf line with
      | none => exact ih d
      | some c =>
          dsimp only
          rw [ih (K c d).2, List.append_assoc]

/-- No line breaks the session, each in the state the lines before it have left. -/
def Unbroken (lines : List Bytes) (d : σ) : Prop :=
  ∀ before line after, lines = before ++ line :: after → ¬ Breaks K (execute K before d).2 line

/-- The first line does not break the session, nor do the rest from where it has led. -/
theorem unbroken_cons {line : Bytes} {lines : List Bytes} {d : σ} :
    Unbroken K (line :: lines) d ↔
      ¬ Breaks K d line ∧ Unbroken K lines (execute K [line] d).2 := by
  constructor
  · intro h
    refine ⟨h [] line lines rfl, fun before line' after heq => ?_⟩
    have hb := h (line :: before) line' after (congrArg (line :: ·) heq)
    rw [show execute K (line :: before) d = _ from execute_append K [line] before d] at hb
    exact hb
  · rintro ⟨hfirst, hrest⟩ before line' after heq
    cases before with
    | nil =>
        obtain ⟨rfl, -⟩ := List.cons.inj heq
        exact hfirst
    | cons l before =>
        obtain ⟨rfl, htail⟩ := List.cons.inj heq
        rw [show execute K (line :: before) d = _ from execute_append K [line] before d]
        exact hrest before line' after htail

/-- The loop reads a line and goes on after it. -/
theorem loop_run_cons (line : Bytes) (lines : List Bytes) (s : σ × List Bytes) :
    (loop (line :: lines)).run (serve K) s = match (handleLine line).run (serve K) s with
      | (.ok _, s') => (loop lines).run (serve K) s'
      | (.error e, s') => (.error e, s') := by
  have hread : (Socket.op .readline).run (serve K) s = (.ok (), s) := rfl
  rw [loop, run_bind, hread]
  dsimp only
  rw [run_bind]
  rcases (handleLine line).run (serve K) s with ⟨e | u, s'⟩ <;> rfl

/-- **A session that no line breaks** executes every line, and sends every answer. -/
theorem loop_unbroken {lines : List Bytes} {d : σ} (h : Unbroken K lines d)
    (sent : List Bytes) :
    ∃ data, (loop lines).run (serve K) (d, sent)
        = (.ok (), ((execute K lines d).2, sent ++ data)) ∧
      data.map some = (execute K lines d).1.map replyBytes := by
  -- on the lines, each executed in the state that the one before has left
  induction lines generalizing d sent with
  | nil => exact ⟨[], by rw [List.append_nil]; rfl, rfl⟩
  | cons line lines ih =>
      obtain ⟨hfirst, hrest⟩ := (unbroken_cons K).mp h
      obtain ⟨data₁, hrun₁, hdata₁⟩ := handleLine_fine K hfirst sent
      obtain ⟨data₂, hrun₂, hdata₂⟩ := ih hrest (sent ++ data₁)
      have happend := execute_append K [line] lines d
      rw [List.singleton_append] at happend
      refine ⟨data₁ ++ data₂, ?_, ?_⟩
      · rw [loop_run_cons, hrun₁, happend, ← List.append_assoc]
        exact hrun₂
      · rw [happend, List.map_append, List.map_append, hdata₁, hdata₂]

/-- **A session that a line breaks** ends with an exception of the manager, or of the
    encoding. -/
theorem loop_broken {lines : List Bytes} {d : σ} (h : ¬ Unbroken K lines d)
    (sent : List Bytes) :
    ∃ e s, (loop lines).run (serve K) (d, sent) = (.error e, s) ∧
      (e = .unicodeEncodeError ∨ ∃ before c, (K c (execute K before d).2).1 = .error e) := by
  induction lines generalizing d sent with
  | nil => exact absurd (fun before line after heq => by cases before <;> exact nomatch heq) h
  | cons line lines ih =>
      rw [loop_run_cons]
      -- the first line that breaks it ends the loop
      by_cases hfirst : Breaks K d line
      · obtain ⟨e, d', hrun, he⟩ := handleLine_breaks K hfirst sent
        rw [hrun]
        refine ⟨e, _, rfl, he.imp_right ?_⟩
        rintro ⟨c, -, hres⟩
        exact ⟨[], c, hres⟩
      · obtain ⟨data, hrun, -⟩ := handleLine_fine K hfirst sent
        obtain ⟨e, s, hrest, he⟩ :=
          ih (fun hrest => h ((unbroken_cons K).mpr ⟨hfirst, hrest⟩)) (sent ++ data)
        rw [hrun]
        refine ⟨e, s, hrest, he.imp_right ?_⟩
        rintro ⟨before, c, hres⟩
        refine ⟨line :: before, c, ?_⟩
        rw [show execute K (line :: before) d = _ from execute_append K [line] before d]
        exact hres

/-- The newline that is sent with a line makes no difference. -/
theorem execute_terminated (lines : List Bytes) (d : σ) :
    execute K (lines.map terminated) d = execute K lines d := by
  induction lines generalizing d with
  | nil => rfl
  | cons line lines ih =>
      rw [List.map_cons, execute, execute, callOf_terminated]
      cases callOf line with
      | none => exact ih d
      | some c =>
          dsimp only
          rw [ih (K c d).2]

/-- The newlines of the lines make no difference. -/
theorem unbroken_terminated {lines : List Bytes} {d : σ} :
    Unbroken K (lines.map terminated) d ↔ Unbroken K lines d := by
  induction lines generalizing d with
  | nil => exact Iff.rfl
  | cons line lines ih =>
      have hline : Breaks K d (terminated line) ↔ Breaks K d line := by
        unfold Breaks
        rw [callOf_terminated]
      have hnext : execute K [terminated line] d = execute K [line] d :=
        execute_terminated K [line] d
      rw [List.map_cons, unbroken_cons, unbroken_cons, hline, hnext, ih]

/-- What is left of an exception after the `except` clause of `_handle_client`. -/
def unhandled : Except Exc Unit → Except Exc Unit
  | .error .connectionError => .ok ()
  | .error .incompleteReadError => .ok ()
  | r => r

/-- The `finally` changes nothing. -/
theorem handleClient_run (stream : Bytes) (s : σ × List Bytes) :
    (handleClient stream).run (serve K) s
      = (unhandled ((loop (readlines stream)).run (serve K) s).1,
        ((loop (readlines stream)).run (serve K) s).2) := by
  have hhang : ∀ s, hangUp.run (serve K) s = (.ok (), s) := fun s => rfl
  unfold handleClient
  rw [run_tryFinally, run_tryExcept, hhang]
  rcases (loop (readlines stream)).run (serve K) s with ⟨e | u, s'⟩
  · cases e <;> rfl
  · rfl

/-! ## Complete lines -/

/-- A manager that raises nothing but `DeviceError`, and returns ASCII.  What it does may
    depend on all calls before. -/
structure Manager where
  answer : List Call → (c : Call) → Except DeviceError c.Res
  isAscii_answer : ∀ calls command timeout reply,
    answer calls (.query command timeout) = .ok reply → isAscii reply = true

/-- Its state is the list of the calls it was handed. -/
def Manager.handle (m : Manager) : Handler Calls Exc (List Call) := fun c calls =>
  ((m.answer calls c).mapError .deviceError, calls ++ [c])

/-- The calls that a session hands to the manager, for a stream that comes in segments. -/
def handed (m : Manager) (segments : List Bytes) : List Call :=
  ((handleClient segments.flatten).run (serve m.handle) ([], [])).2.1

/-- The stripped lines that are not blank: those with a `?` as queries, the others as
    writes. -/
def forwarded (lines : List Bytes) : List Call :=
  ((lines.map fun line => strip (decodeAscii line)).filter fun command => command ≠ []).map
    fun command => if '?' ∈ command then .query command none else .write command none

theorem filterMap_callOf (lines : List Bytes) : lines.filterMap callOf = forwarded lines := by
  unfold forwarded
  induction lines with
  | nil => rfl
  | cons line lines ih =>
      rw [List.filterMap_cons, List.map_cons, callOf]
      by_cases hblank : strip (decodeAscii line) = []
      · rw [if_pos hblank, List.filter_cons_of_neg (by simpa using hblank)]
        exact ih
      · rw [if_neg hblank, List.filter_cons_of_pos (by simpa using hblank), List.map_cons, ← ih]
        by_cases hquery : '?' ∈ strip (decodeAscii line)
        · rw [if_pos hquery, if_pos hquery]
        · rw [if_neg hquery, if_neg hquery]

/-- With or without the newline the same commands are forwarded. -/
theorem forwarded_terminated (lines : List Bytes) :
    forwarded (lines.map terminated) = forwarded lines := by
  rw [← filterMap_callOf, ← filterMap_callOf, List.filterMap_map]
  exact congrArg (fun f => lines.filterMap f) (funext callOf_terminated)

/-- A session makes the calls of its lines, in their order. -/
theorem execute_handle (m : Manager) (lines : List Bytes) (calls : List Call) :
    (execute m.handle lines calls).2 = calls ++ forwarded lines := by
  rw [← filterMap_callOf]
  induction lines generalizing calls with
  | nil => exact (List.append_nil calls).symm
  | cons line lines ih =>
      rw [execute, List.filterMap_cons]
      cases callOf line with
      | none => exact ih calls
      | some c => exact (ih (calls ++ [c])).trans (List.append_assoc ..)

/-- Such a manager breaks no session. -/
theorem not_breaks (m : Manager) (line : Bytes) (calls : List Call) :
    ¬ Breaks m.handle calls line := by
  rintro ⟨c, -, ⟨e, he, hnot⟩ | ⟨v, reply, hv, hreply, hascii⟩⟩
  · unfold Manager.handle at he
    cases hans : m.answer calls c with
    | ok v =>
        rw [hans] at he
        exact nomatch he
    | error e' =>
        rw [hans] at he
        exact hnot e' (Except.error.inj he).symm
  · unfold Manager.handle at hv
    cases c with
    | write command timeout => exact nomatch hreply
    | query command timeout =>
        obtain rfl : v = reply := Option.some.inj hreply
        cases hans : m.answer calls (.query command timeout) with
        | error e =>
            rw [hans] at hv
            exact nomatch hv
        | ok v' =>
            rw [hans] at hv
            obtain rfl : v' = v := Except.ok.inj hv
            rw [m.isAscii_answer calls command timeout v' hans] at hascii
            exact nomatch hascii

/-- A session hands over what `readline` gives it, the fragment included. -/
theorem handed_eq (m : Manager) (segments : List Bytes) :
    handed m segments = forwarded (completeLines segments.flatten) ++
      forwarded [fragment segments.flatten] := by
  have hunbroken : Unbroken m.handle (readlines segments.flatten) [] :=
    fun _ _ _ _ => not_breaks m _ _
  obtain ⟨data, hrun, -⟩ := loop_unbroken m.handle hunbroken []
  -- an empty remainder is the end of the stream, and no line at all
  have hleftover : ∀ rest : Bytes, forwarded (leftover rest) = forwarded [rest] := by
    intro rest
    cases rest <;> rfl
  unfold handed
  rw [handleClient_run, hrun, execute_handle, readlines_splitLines, List.nil_append,
    ← forwarded_terminated (completeLines _), ← hleftover]
  simp only [forwarded, List.map_append, List.filter_append]

/-- **ONLY COMPLETE LINES ARE EXECUTED**, unless the stream ends in a fragment that is not
    blank: the calls are exactly those of the complete lines, in their order, however the
    stream is cut into segments. -/
theorem complete_lines_iff (m : Manager) (segments : List Bytes) :
    handed m segments = forwarded (completeLines segments.flatten) ↔
      strip (decodeAscii (fragment segments.flatten)) = [] := by
  rw [handed_eq, List.append_right_eq_self]
  unfold forwarded
  by_cases hblank : strip (decodeAscii (fragment segments.flatten)) = []
  · refine iff_of_true ?_ hblank
    rw [List.map_singleton, List.filter_cons_of_neg (by simpa using hblank)]
    rfl
  · refine iff_of_false ?_ hblank
    rw [List.map_singleton, List.filter_cons_of_pos (by simpa using hblank)]
    exact List.cons_ne_nil _ _

/-- A meter that does not answer, behind a manager with this default timeout. -/
def silent (defaultTimeout : Rat) : Manager where
  answer _
    | .query command timeout =>
        .error (.transactionFailed command (.noResponse command (timeout.getD defaultTimeout)))
    | .write _ _ => .ok ()
  isAscii_answer _ _ _ _ h := nomatch h

/-- The bytes of `CONF:CURR`, the beginning of a `CONF:CURR:AC` that was cut off. -/
def cutOff : Bytes := "CONF:CURR".toList.map fun c => UInt8.ofNat c.toNat

/-- **A fragment is executed**: it selects another function than the line it was cut off
    from. -/
theorem fragment_handed :
    ¬ ∀ (m : Manager) (segments : List Bytes), (∀ segment ∈ segments, ∀ x ∈ segment, x < 128) →
      handed m segments = forwarded (completeLines segments.flatten) := by
  intro h
  have hall : ∀ segment ∈ [cutOff], ∀ x ∈ segment, x < 128 := by decide +kernel
  have hhanded : handed (silent 2) [cutOff] = [.write "CONF:CURR".toList none] := by decide
  have hnone : forwarded (completeLines [cutOff].flatten) = [] := by decide
  have hsame := h (silent 2) [cutOff] hall
  rw [hhanded, hnone] at hsame
  exact nomatch hsame

end Sessions
