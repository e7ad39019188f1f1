import XdmServer.Recovery
import XdmServer.Sessions

/-! # Bad lines

    A session over a `SerialTransport`, against any script of pyserial outcomes whose
    failures surface as `TransportError`.  `survives_iff` says when the session goes on to
    its end: as long as no line that is not ASCII comes to be encoded, and no answer that
    is not ASCII comes back. -/

namespace BadLines

open PyText Coroutine Commands Device PortScript Scpi Sessions Recovery

/-- A script whose failures surface as `TransportError`: pyserial raises nothing but what
    the `except` clause of `_transact_blocking` names, and `ser.close()` returns. -/
structure Surfacing extends Script where
  resetInputBuffer : ∀ i text, (transaction i).resetInputBuffer ≠ .error (.termiosError text)
  flush : ∀ i text, (transaction i).flush ≠ .error (.termiosError text)
  closes : ∀ i, close i = .ok ()

/-- The transaction of its own that a call gets to, if it does: where the port is closed,
    it is opened and greeted first. -/
def Reaches (script : Script) (d : Desk) (o : TxnScript) : Prop :=
  d.isOpen = true ∧ o = script.transaction d.transacted ∨
  d.isOpen = false ∧ script.construct d.constructed = .ok () ∧
    ¬ (script.transaction d.transacted).Fails LOCAL false ∧
    o = script.transaction (d.transacted + 1)

/-- The line is a command that is not ASCII and comes to be encoded, or a query whose
    answer is not ASCII. -/
def Spoils (script : Script) (d : Desk) (line : Bytes) : Prop :=
  ∃ c o, callOf line = some c ∧ Reaches script d o ∧ o.resetInputBuffer = .ok () ∧
    (isAscii c.command = false ∨
      isAscii c.command = true ∧ o.write = .ok () ∧ o.flush = .ok () ∧ c.expects = true ∧
        ∃ raw, o.readline = .ok raw ∧ ∃ x ∈ raw, 128 ≤ x)

variable (T : SerialTransport) (timeout : Rat) (script : Surfacing)

/-- The manager, for a task alone with it. -/
def calls : Coro.Handler Calls Exc Desk := fun c d =>
  ((serialManager T timeout).perform c).run (desk T script.toScript) d

/-- The session goes on to the end of the stream: no exception leaves it, every line is
    executed, and every answer is sent. -/
structure Survives (lines : List ClientLine) (d : Desk) : Prop where
  ended : ((handleClient ((lines.map ClientLine.body).map terminated).flatten).run
    (serve (calls T timeout script)) (d, [])).1 = .ok ()
  executed : ((handleClient ((lines.map ClientLine.body).map terminated).flatten).run
    (serve (calls T timeout script)) (d, [])).2.1
      = (execute (calls T timeout script) (lines.map ClientLine.body) d).2
  answered : ((handleClient ((lines.map ClientLine.body).map terminated).flatten).run
    (serve (calls T timeout script)) (d, [])).2.2.map some
      = (execute (calls T timeout script) (lines.map ClientLine.body) d).1.map replyBytes

/-! ## What a call comes to -/

/-- What the encoding of a command, or a dead descriptor, raises. -/
def NotEncoded (e : Exc) : Prop := e = .unicodeEncodeError ∨ ∃ text, e = .termiosError text

/-- Where failures surface, only a command that is not ASCII escapes. -/
theorem escapes_iff (i : Nat) (command : Str) :
    (script.transaction i).Escapes command ↔
      (script.transaction i).resetInputBuffer = .ok () ∧ isAscii command = false := by
  constructor
  · rintro (⟨text, h⟩ | ⟨hreset, hascii | ⟨-, text, h⟩⟩)
    · exact absurd h (script.resetInputBuffer i text)
    · exact ⟨hreset, hascii⟩
    · exact absurd h (script.flush i text)
  · exact fun ⟨hreset, hascii⟩ => .inr ⟨hreset, .inl hascii⟩

/-- **The `try` of `_transact`**, on an open transport. -/
theorem attempt_cases {d : Desk} (hopen : d.isOpen = true) (command : Str) (expects : Bool)
    (limit : Rat) :
    let x := ((serialManager T timeout).attempt command expects limit).run
      (desk T script.toScript) d
    let o := script.transaction d.transacted
    (∃ r, o.Returns command expects r ∧ x.1 = .ok r) ∨
    ((∃ e, x.1 = .error (.deviceError e)) ∧ o.Fails command expects) ∨
    (o.resetInputBuffer = .ok () ∧ isAscii command = false) ∧
      ∃ e, x.1 = .error e ∧ NotEncoded e := by
  intro x o
  obtain ⟨r, w, hrun, hexp, -⟩ := run_transact T script.toScript hopen command expects limit
  have hx : x = _ := Coro.run_tryExcept (desk T script.toScript) _ _ d
  rw [show ((serialManager T timeout).transport.transact command expects limit).run
    (desk T script.toScript) d = _ from hrun] at hx
  clear_value x
  rcases r with e | r
  · cases e with
    | transportError exc =>
        obtain ⟨hiff, herr⟩ := cleanup_recovered (α := Option Str) T timeout script.toScript
          (d := d.play w) hopen (.transactionFailed command exc)
        subst hx
        obtain ⟨v, hv⟩ | ⟨he, -⟩ := hiff.mpr (script.closes _)
        · exact absurd hv (herr v)
        · exact .inr (.inl ⟨he, hexp⟩)
    | termiosError text =>
        subst hx
        exact .inr (.inr ⟨(escapes_iff script _ _).mp hexp, _, rfl, .inr ⟨text, rfl⟩⟩)
    | unicodeEncodeError =>
        subst hx
        exact .inr (.inr ⟨(escapes_iff script _ _).mp hexp, _, rfl, .inl rfl⟩)
    | _ => exact hexp.elim
  · subst hx
    exact .inl ⟨r, hexp, rfl⟩

/-- **Reconnecting** comes off, or a `DeviceError` says that it did not. -/
theorem reconnect_cases {d : Desk} (hclosed : d.isOpen = false) :
    let x := (serialManager T timeout).reconnect.run (desk T script.toScript) d
    (x.1 = .ok () ∧ script.construct d.constructed = .ok () ∧
      ¬ (script.transaction d.transacted).Fails LOCAL false ∧ Reopened d x) ∨
    (∃ e, x.1 = .error (.deviceError e)) ∧ ∀ o, ¬ Reaches script.toScript d o := by
  intro x
  have hreach : ∀ o, Reaches script.toScript d o → script.construct d.constructed = .ok () ∧
      ¬ (script.transaction d.transacted).Fails LOCAL false := by
    rintro o (⟨hopen, -⟩ | ⟨-, hcon, hfails, -⟩)
    · exact nomatch hclosed.symm.trans hopen
    · exact ⟨hcon, hfails⟩
  rcases hcon : script.construct d.constructed with e | _
  · obtain ⟨hrec, hne⟩ := reconnect_refused T timeout script.toScript hclosed hcon
    obtain ⟨v, hv⟩ | ⟨he, -⟩ := hrec
    · exact absurd hv hne
    · exact .inr ⟨he, fun o h => nomatch hcon.symm.trans (hreach o h).1⟩
  · obtain ⟨hiff, hne, hopened⟩ := reconnect_recovered T timeout script.toScript hclosed hcon
    have hescapes : ¬ (script.transaction d.transacted).Escapes LOCAL := fun h =>
      nomatch ((escapes_iff script _ _).mp h).2
    by_cases hok : x.1 = .ok ()
    · refine .inl ⟨hok, rfl, fun hfails => hne.mpr (.inr hfails) hok, hopened hok⟩
    · obtain ⟨v, hv⟩ | ⟨he, -⟩ := hiff.mpr ⟨hescapes, fun _ => script.closes _⟩
      · exact absurd hv hok
      · refine .inr ⟨he, fun o h => ?_⟩
        obtain hbad | hbad := hne.mp hok
        · exact hescapes hbad
        · exact (hreach o h).2 hbad

/-- **Under the lock**: the reconnect if there is need of one, then the command. -/
theorem exchange_cases (d : Desk) (command : Str) (expects : Bool) (limit : Rat) :
    let x := ((serialManager T timeout).exchange command expects limit).run
      (desk T script.toScript) d
    (∃ o r, Reaches script.toScript d o ∧ o.Returns command expects r ∧ x.1 = .ok r) ∨
    ((∃ e, x.1 = .error (.deviceError e)) ∧
      ∀ o, Reaches script.toScript d o → o.Fails command expects) ∨
    (∃ o, Reaches script.toScript d o ∧ o.resetInputBuffer = .ok () ∧ isAscii command = false) ∧
      ∃ e, x.1 = .error e ∧ NotEncoded e := by
  intro x
  have hx : x = _ := Coro.run_bind (desk T script.toScript) _ _ d
  rw [DeviceManager.ensureOpen, Coro.run_bind] at hx
  rw [show (serialManager T timeout).transport.isOpen.run (desk T script.toScript) d = _
    from run_isOpen T script.toScript d] at hx
  clear_value x
  cases hopen : d.isOpen with
  | true =>
      rw [hopen] at hx
      have hreach : ∀ o, Reaches script.toScript d o ↔ o = script.transaction d.transacted := by
        refine fun o => ⟨?_, fun h => .inl ⟨hopen, h⟩⟩
        rintro (⟨-, h⟩ | ⟨hclosed, -⟩)
        · exact h
        · cases hopen.symm.trans hclosed
      obtain ⟨r, hret, hr⟩ | ⟨he, hfails⟩ | ⟨hbad, he⟩ :=
        attempt_cases T timeout script hopen command expects limit
      · subst hx
        exact .inl ⟨_, r, (hreach _).mpr rfl, hret, hr⟩
      · subst hx
        exact .inr (.inl ⟨he, fun o ho => (hreach o).mp ho ▸ hfails⟩)
      · subst hx
        exact .inr (.inr ⟨⟨_, (hreach _).mpr rfl, hbad⟩, he⟩)
  | false =>
      rw [hopen] at hx
      dsimp only at hx
      rw [if_neg Bool.false_ne_true] at hx
      obtain ⟨hok, hcon, hgreeted, hopened⟩ | ⟨⟨e, he⟩, hnone⟩ :=
        reconnect_cases T timeout script hopen
      · rcases hrun : (serialManager T timeout).reconnect.run (desk T script.toScript) d
          with ⟨e | u, d'⟩
        · rw [hrun] at hok
          cases hok
        rw [hrun] at hx hopened
        obtain ⟨-, hopen', htrans, -⟩ := hopened
        have hreach : ∀ o, Reaches script.toScript d o ↔
            o = script.transaction (d.transacted + 1) := by
          refine fun o => ⟨?_, fun h => .inr ⟨hopen, hcon, hgreeted, h⟩⟩
          rintro (⟨h, -⟩ | ⟨-, -, -, h⟩)
          · cases hopen.symm.trans h
          · exact h
        obtain ⟨r, hret, hr⟩ | ⟨he, hfails⟩ | ⟨hbad, he⟩ :=
          attempt_cases T timeout script hopen' command expects limit
        · subst hx
          rw [htrans] at hret
          exact .inl ⟨_, r, (hreach _).mpr rfl, hret, hr⟩
        · subst hx
          rw [htrans] at hfails
          exact .inr (.inl ⟨he, fun o ho => (hreach o).mp ho ▸ hfails⟩)
        · subst hx
          rw [htrans] at hbad
          exact .inr (.inr ⟨⟨_, (hreach _).mpr rfl, hbad⟩, he⟩)
      · rcases hrun : (serialManager T timeout).reconnect.run (desk T script.toScript) d
          with ⟨e' | u, d'⟩
        · rw [hrun] at he hx
          obtain rfl := Except.error.inj he
          subst hx
          exact .inr (.inl ⟨⟨e, rfl⟩, fun o ho => absurd ho (hnone o)⟩)
        · rw [hrun] at he
          cases he

/-- **A whole call**: it returns, or a `DeviceError` says that its transaction failed, or
    its command is not ASCII and came to be encoded. -/
theorem call_cases {d : Desk} (hd : d.locked = false) (c : Call) :
    let x := calls T timeout script c d
    x.2.locked = false ∧
    ((∃ o r v, Reaches script.toScript d o ∧ o.Returns c.command c.expects r ∧
      c.value r = .ok v ∧ x.1 = .ok v) ∨
    ((∃ e, x.1 = .error (.deviceError e)) ∧
      ∀ o, Reaches script.toScript d o → o.Fails c.command c.expects) ∨
    (∃ o, Reaches script.toScript d o ∧ o.resetInputBuffer = .ok () ∧
      isAscii c.command = false) ∧ ∃ e, x.1 = .error e ∧ NotEncoded e) := by
  intro x
  have hhold := run_hold T script.toScript ((serialManager T timeout).exchange c.command c.expects
    (c.timeout.getD timeout)) hd
  have hcases := exchange_cases T timeout script { d with locked := true } c.command c.expects
    (c.timeout.getD timeout)
  have hx : x = _ := (congrArg (fun p => p.run (desk T script.toScript) d)
    ((serialManager T timeout).perform_eq c)).trans (Coro.run_andThen ..)
  rw [show ((serialManager T timeout).transact c.command c.expects c.timeout).run
    (desk T script.toScript) d = _ from hhold] at hx
  clear_value x
  rcases hrun : ((serialManager T timeout).exchange c.command c.expects
    (c.timeout.getD timeout)).run (desk T script.toScript) { d with locked := true }
    with ⟨e | r, d'⟩
  · rw [hrun] at hcases hx
    subst hx
    refine ⟨rfl, .inr ?_⟩
    obtain ⟨o, r, -, -, hr⟩ | ⟨⟨e', he⟩, hfails⟩ | ⟨hbad, e', he, hnot⟩ := hcases
    · exact nomatch hr
    · obtain rfl := Except.error.inj he
      exact .inl ⟨⟨e', rfl⟩, hfails⟩
    · obtain rfl := Except.error.inj he
      exact .inr ⟨hbad, e, rfl, hnot⟩
  · rw [hrun] at hcases hx
    obtain ⟨o, r', hreach, hret, hr⟩ | ⟨⟨e', he⟩, -⟩ | ⟨-, e', he, -⟩ := hcases
    · obtain rfl := Except.ok.inj hr
      have hval : ∃ v, c.value r = .ok v := by
        have hsome := hret.isSome
        cases c with
        | query command limit =>
            obtain ⟨v, rfl⟩ := Option.isSome_iff_exists.mp hsome
            exact ⟨v, rfl⟩
        | write command limit => exact ⟨(), rfl⟩
      obtain ⟨v, hv⟩ := hval
      have hx' : x = (.ok v, { d' with locked := false }) := by
        rw [hx]
        show (Coro.ofExcept (c.value r)).run (desk T script.toScript) _ = _
        rw [hv]
        rfl
      subst hx'
      exact ⟨rfl, .inl ⟨o, r, v, hreach, hret, hv, rfl⟩⟩
    · exact nomatch he
    · exact nomatch he

/-! ## What a session comes to -/

/-- A call gets to one transaction at most. -/
theorem Reaches.unique {d : Desk} {o o' : TxnScript} (h : Reaches script.toScript d o)
    (h' : Reaches script.toScript d o') : o = o' := by
  obtain ⟨hopen, rfl⟩ | ⟨hopen, -, -, rfl⟩ := h <;>
    obtain ⟨hopen', rfl⟩ | ⟨hopen', -, -, rfl⟩ := h'
  · rfl
  · exact nomatch hopen.symm.trans hopen'
  · exact nomatch hopen.symm.trans hopen'
  · rfl

/-- An answer outside ASCII cannot be sent. -/
theorem isAscii_answer {raw : Bytes} :
    isAscii (strip (decodeAscii raw)) = false ↔ ∃ x ∈ raw, 128 ≤ x := by
  rw [isAscii_strip_decodeAscii, List.all_eq_false]
  constructor
  · rintro ⟨x, hx, hlt⟩
    exact ⟨x, hx, UInt8.not_lt.mp fun h => hlt (decide_eq_true h)⟩
  · rintro ⟨x, hx, hge⟩
    exact ⟨x, hx, fun h => UInt8.not_lt.mpr hge (of_decide_eq_true h)⟩

/-- **What breaks a session**, by what the pyserial calls come to. -/
theorem breaks_iff {d : Desk} (hd : d.locked = false) (line : Bytes) :
    Breaks (calls T timeout script) d line ↔ Spoils script.toScript d line := by
  constructor
  · -- what breaks it comes from the encoding of the command or of the answer
    rintro ⟨c, hcall, h⟩
    obtain ⟨-, ⟨o, r, v, hreach, hret, hval, hx⟩ | ⟨⟨e, hx⟩, -⟩ |
        ⟨⟨o, hreach, hreset, hascii⟩, -⟩⟩ :=
      call_cases T timeout script hd c
    · obtain ⟨e, he, -⟩ | ⟨v', reply, hv', hreply, hbad⟩ := h
      · exact nomatch he.symm.trans hx
      · obtain rfl := Except.ok.inj (hv'.symm.trans hx)
        obtain ⟨hreset, hascii, hwrite, hflush, ⟨hno, -⟩ | ⟨hexp, raw, hraw, hne, rfl⟩⟩ := hret
        · cases c with
          | query command limit => exact nomatch hno
          | write command limit => exact nomatch hreply
        · cases c with
          | write command limit => exact nomatch hreply
          | query command limit =>
              obtain rfl : strip (decodeAscii raw) = v' := Except.ok.inj hval
              obtain rfl : strip (decodeAscii raw) = reply := Option.some.inj hreply
              exact ⟨_, o, hcall, hreach, hreset, .inr ⟨hascii, hwrite, hflush, rfl, raw, hraw,
                isAscii_answer.mp hbad⟩⟩
    · obtain ⟨e', he, hnot⟩ | ⟨v, reply, hv, -⟩ := h
      · exact absurd (Except.error.inj (he.symm.trans hx)) (hnot e)
      · exact nomatch hv.symm.trans hx
    · exact ⟨c, o, hcall, hreach, hreset, .inl hascii⟩
  · -- what spoils it gets as far as that encoding, and is no `DeviceError`
    rintro ⟨c, o, hcall, hreach, hreset, h⟩
    refine ⟨c, hcall, ?_⟩
    obtain ⟨-, ⟨o', r, v, hreach', hret, hval, hx⟩ | ⟨⟨e, hx⟩, hfails⟩ |
        ⟨⟨o', hreach', -, hascii'⟩, e, hx, he⟩⟩ := call_cases T timeout script hd c
    · obtain rfl := hreach.unique script hreach'
      obtain ⟨-, hascii', -, -, hr⟩ := hret
      obtain hascii | ⟨-, -, -, hexp, raw, hraw, hbad⟩ := h
      · exact nomatch hascii.symm.trans hascii'
      · obtain ⟨hno, -⟩ | ⟨-, raw', hraw', -, rfl⟩ := hr
        · exact nomatch hexp.symm.trans hno
        · obtain rfl := Except.ok.inj (hraw.symm.trans hraw')
          cases c with
          | write command limit => exact nomatch hexp
          | query command limit =>
              obtain rfl : strip (decodeAscii raw) = v := Except.ok.inj hval
              exact .inr ⟨_, _, hx, rfl, isAscii_answer.mpr hbad⟩
    · obtain ⟨e', he'⟩ | ⟨-, hascii', hbad⟩ := hfails o hreach
      · exact nomatch hreset.symm.trans he'
      · obtain hascii | ⟨-, hwrite, hflush, -, raw, hraw, x, hx, -⟩ := h
        · exact nomatch hascii.symm.trans hascii'
        · obtain ⟨e', he'⟩ | ⟨-, ⟨e', he'⟩ | ⟨-, -, ⟨e', he'⟩ | hempty⟩⟩ := hbad
          · exact nomatch hwrite.symm.trans he'
          · exact nomatch hflush.symm.trans he'
          · exact nomatch hraw.symm.trans he'
          · obtain rfl := Except.ok.inj (hraw.symm.trans hempty)
            exact nomatch hx
    · refine .inl ⟨e, hx, fun e' heq => ?_⟩
      subst heq
      obtain h | ⟨text, h⟩ := he <;> exact nomatch h

/-- The lock is free again after every line. -/
theorem execute_locked {d : Desk} (hd : d.locked = false) (lines : List Bytes) :
    (execute (calls T timeout script) lines d).2.locked = false := by
  induction lines generalizing d with
  | nil => exact hd
  | cons line lines ih =>
      rw [execute]
      cases callOf line with
      | none => exact ih hd
      | some c => exact ih (call_cases T timeout script hd c).1

/-- No call raises what `_handle_client` would take for the end of the connection. -/
theorem unhandled_error {d : Desk} (hd : d.locked = false) {c : Call} {e : Exc}
    (h : (calls T timeout script c d).1 = .error e) :
    unhandled (.error e) = .error e := by
  obtain ⟨-, ⟨o, r, v, -, -, -, hx⟩ | ⟨⟨e', hx⟩, -⟩ | ⟨-, e', hx, he⟩⟩ :=
    call_cases T timeout script hd c
  · exact nomatch h.symm.trans hx
  · obtain rfl := Except.error.inj (h.symm.trans hx)
    rfl
  · obtain rfl := Except.error.inj (h.symm.trans hx)
    obtain rfl | ⟨text, rfl⟩ := he <;> rfl

/-- **ONE BAD LINE NEVER ENDS A SESSION**, exactly if no line spoils it: each in the state
    that the lines before it have left, and whatever else the port does. -/
theorem survives_iff {d : Desk} (hd : d.locked = false) (lines : List ClientLine) :
    Survives T timeout script lines d ↔
      ∀ before line after, lines.map ClientLine.body = before ++ line :: after →
        ¬ Spoils script.toScript (execute (calls T timeout script) before d).2 line := by
  have hread : readlines ((lines.map ClientLine.body).map terminated).flatten
      = (lines.map ClientLine.body).map terminated := by
    refine readlines_terminated fun body hbody => ?_
    obtain ⟨line, -, rfl⟩ := List.mem_map.mp hbody
    exact line.newline_notMem
  have hspoils : (∀ before line after, lines.map ClientLine.body = before ++ line :: after →
      ¬ Spoils script.toScript (execute (calls T timeout script) before d).2 line) ↔
      Unbroken (calls T timeout script) (lines.map ClientLine.body) d :=
    forall_congr' fun before => forall_congr' fun line => forall_congr' fun _ =>
      imp_congr_right fun _ =>
        not_congr (breaks_iff T timeout script
          (execute_locked T timeout script hd before) line).symm
  have hterminated : Unbroken (calls T timeout script)
      ((lines.map ClientLine.body).map terminated) d ↔ _ := unbroken_terminated _
  rw [hspoils]
  constructor
  · intro h
    by_contra hbroken
    -- the exception is none that `_handle_client` catches
    obtain ⟨e, s, hrun, he⟩ := loop_broken (calls T timeout script)
      (fun hunbroken => hbroken (hterminated.mp hunbroken)) []
    have hended := h.ended
    rw [handleClient_run, hread, hrun] at hended
    have hunhandled : unhandled (.error e) = .error e := by
      obtain rfl | ⟨before, c, hres⟩ := he
      · rfl
      · exact unhandled_error T timeout script (execute_locked T timeout script hd before) hres
    exact nomatch hunhandled.symm.trans hended
  · intro h
    obtain ⟨data, hrun, hdata⟩ := loop_unbroken (calls T timeout script) (hterminated.mpr h) []
    rw [execute_terminated, List.nil_append] at hrun
    rw [execute_terminated] at hdata
    have hclient : (handleClient ((lines.map ClientLine.body).map terminated).flatten).run
        (serve (calls T timeout script)) (d, [])
          = (.ok (),
            ((execute (calls T timeout script) (lines.map ClientLine.body) d).2, data)) := by
      rw [handleClient_run, hread, hrun]
      rfl
    refine ⟨?_, ?_, ?_⟩
    · rw [hclient]
    · rw [hclient]
    · rw [hclient]
      exact hdata

/-! ## A line that is not ASCII -/

/-- A port on which every call returns, and a meter that answers with a zero. -/
def prompt : Surfacing where
  construct _ := .ok ()
  transaction _ := answered
  close _ := .ok ()
  resetInputBuffer _ _ h := nomatch h
  flush _ _ h := nomatch h
  closes _ := rfl

/-- The byte `0xB5`, and after it a query. -/
def micro : List ClientLine :=
  [⟨[0xB5], by decide⟩, ⟨[77, 69, 65, 83, 49, 63], by decide⟩]

/-- **One bad line ends a session**: the query after it is not executed. -/
theorem not_survives :
    ¬ ∀ (T : SerialTransport) (timeout : Rat) (script : Surfacing) (d : Desk)
      (lines : List ClientLine), d.locked = false → Survives T timeout script lines d := by
  intro h
  have hended := (h ⟨"/dev/ttyUSB0".toList, 115200⟩ 2 prompt unused micro rfl).ended
  have hraised : ((handleClient ((micro.map ClientLine.body).map terminated).flatten).run
      (serve (calls ⟨"/dev/ttyUSB0".toList, 115200⟩ 2 prompt)) (unused, [])).1
        = .error .unicodeEncodeError := rfl
  exact nomatch hraised.symm.trans hended

/-- The condition, for the two lines. -/
theorem survives_iff_micro :
    Survives ⟨"/dev/ttyUSB0".toList, 115200⟩ 2 prompt micro unused ↔
      ∀ before line after, micro.map ClientLine.body = before ++ line :: after →
        ¬ Spoils prompt.toScript
          (execute (calls ⟨"/dev/ttyUSB0".toList, 115200⟩ 2 prompt) before unused).2 line :=
  survives_iff _ 2 prompt rfl micro

end BadLines
